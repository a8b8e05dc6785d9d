import TacoDB.Catalog.Additions
import TacoDB.Catalog.GeneratedData
import TacoDB.Catalog.InitialFiles

/-!
# The init data file of the build

The init data file that the build generates describes the systables: each has a section with
the columns of its `.inc` file, `Table` and `Column` have the rows for them, and `Type` has the
rows of its data file. The files that are made of it hold the content of the sections.
-/

namespace Taco

open Eff Initoids InitDataFileReader Schema

def systableRows (secs : List InitSection) (k : Nat) : List (List Datum) :=
  ((secs.find? (·.tabid = k)).elim [] (·.rows)).map (systableSchema k).decoded

namespace Content

def ofSections (secs : List InitSection) : Content :=
  { tables := (systableRows secs tabTable).map .ofData
    types := (systableRows secs tabType).map .ofData
    columns := (systableRows secs tabColumn).map .ofData
    functions := (systableRows secs tabFunction).map .ofData
    functionArgs := (systableRows secs tabFunctionArgs).map .ofData
    operators := (systableRows secs tabOperator).map .ofData
    indexes := (systableRows secs tabIndex).map .ofData
    indexColumns := (systableRows secs tabIndexColumn).map .ofData }

def withFids (fidOf : Nat → Option Nat) (c : Content) : Content :=
  { c with tables := c.tables.map fun r => { r with tabfid := (fidOf r.tabid).getD invalidFid } }

end Content

structure StandardSections (secs : List InitSection) : Prop where
  sound : SoundSections secs
  sections : ∀ k ∈ systabids, ∃ sec ∈ secs, sec.tabid = k ∧ sec.rows ≠ [] ∧ sec.HasTypesOf k
  tables : ∀ k ∈ systabids, ((Content.ofSections secs).findTable k).map (·.tabncols) =
    some ((systableColumnsOf k).length : Int)
  columns : ∀ k ∈ systabids, (Content.ofSections secs).columnsOf k = systableColumnsOf k
  types : (Content.ofSections secs).types = typeRows
  issued : (Content.ofSections secs).Issued (maxSysOid + 1)

section

variable {secs : List InitSection} {fidOf : Nat → Option Nat} {k : Nat}

theorem rows_ofSections (hk : k ∈ systabids) (secs : List InitSection) :
    (Content.ofSections secs).rows k = (systableRows secs k).map (SysTableStruct.ofData k) := by
  have hall : ∀ {α : Type} (g : List Datum → α) (wrap : α → SysTableStruct) (k : Nat),
      (∀ data, SysTableStruct.ofData k data = wrap (g data)) →
        ((systableRows secs k).map g).map wrap =
          (systableRows secs k).map (SysTableStruct.ofData k) := by
    intro α g wrap k hwrap
    rw [List.map_map]
    exact List.map_congr_left fun data _ => (hwrap data).symm
  simp only [systabids, List.mem_cons, List.not_mem_nil, or_false] at hk
  rcases hk with rfl | rfl | rfl | rfl | rfl | rfl | rfl | rfl
  · exact hall .ofData .table tabTable fun _ => rfl
  · exact hall .ofData .type tabType fun _ => rfl
  · exact hall .ofData .column tabColumn fun _ => rfl
  · exact hall .ofData .function tabFunction fun _ => rfl
  · exact hall .ofData .functionArgs tabFunctionArgs fun _ => rfl
  · exact hall .ofData .operator tabOperator fun _ => rfl
  · exact hall .ofData .index tabIndex fun _ => rfl
  · exact hall .ofData .indexColumn tabIndexColumn fun _ => rfl

theorem rows_withFids (c : Content) (hk : k ≠ tabTable) :
    (c.withFids fidOf).rows k = c.rows k := by
  rw [Content.rows, Content.rows, if_neg hk, if_neg hk]
  rfl

theorem findTable_withFids (c : Content) (tabid : Nat) :
    (c.withFids fidOf).findTable tabid =
      (c.findTable tabid).map fun r => { r with tabfid := (fidOf r.tabid).getD invalidFid } := by
  rw [Content.findTable, Content.withFids, List.find?_map]
  rfl

theorem systableRows_eq (hnodup : (secs.map (·.tabid)).Nodup) {sec : InitSection}
    (hsec : sec ∈ secs) (htabid : sec.tabid = k) :
    systableRows secs k = sec.rows.map (systableSchema k).decoded := by
  have hfind : secs.find? (·.tabid = k) = some sec := by
    cases h : secs.find? (·.tabid = k) with
    | none =>
        have := List.find?_eq_none.mp h sec hsec
        simp [htabid] at this
    | some sec' =>
        have htabid' := List.find?_some h
        simp only [decide_eq_true_eq] at htabid'
        refine congrArg some (List.inj_on_of_nodup_map hnodup (List.mem_of_find?_eq_some h) hsec ?_)
        rw [htabid', htabid]
  rw [systableRows, hfind]
  rfl

theorem holdsRows_of_forall₂ {f : InmemFile} {rows : List (List Datum)} {recs : List ByteString}
    {R : List Datum → ByteString → Prop} {g : List Datum → SysTableStruct}
    (h : List.Forall₂ R rows recs) (hrecs : f.records = recs)
    (hread : ∀ row rec, R row rec → ∃ data,
      (systableSchema k).dissemblePayload rec = .ok data ∧ SysTableStruct.ofData k data = g row) :
    HoldsRows k f (rows.map g) := by
  constructor
  · rw [hrecs]
    clear hrecs
    induction h with
    | nil =>
        intro rec hrec
        cases hrec
    | cons hrow _ ih =>
        intro rec hrec
        rcases List.mem_cons.mp hrec with rfl | hrec
        · obtain ⟨data, hdata, -⟩ := hread _ _ hrow
          exact ⟨data, hdata⟩
        · exact ih rec hrec
  · rw [hrecs]
    clear hrecs
    induction h with
    | nil => rfl
    | cons hrow _ ih =>
        obtain ⟨data, hdata, heq⟩ := hread _ _ hrow
        rw [List.map_cons, List.map_cons, ih, Schema.rowData_eq hdata, heq]

theorem ofData_withTabfid {fid : Nat} {data : List Datum} (hlen : data.length = 6)
    (hfid : fid < 2 ^ 32) :
    SysTableTable.ofData (withTabfid fid data) = { SysTableTable.ofData data with tabfid := fid } := by
  have hget : ∀ i, i ≠ SysTableTable.tabfidColid → fieldOf (withTabfid fid data) i = fieldOf data i := by
    intro i hi
    rw [fieldOf, fieldOf, withTabfid, List.getD_eq_getElem?_getD, List.getD_eq_getElem?_getD,
      List.getElem?_set_ne (Ne.symm hi)]
  have hset : fieldOf (withTabfid fid data) SysTableTable.tabfidColid =
      .fixed (BitVec.ofNat 64 fid) := by
    rw [fieldOf, withTabfid, List.getD_eq_getElem?_getD,
      List.getElem?_set_self (by rw [hlen]; decide), Nat.mod_eq_of_lt hfid]
    rfl
  have hval : (Datum.fixed (BitVec.ofNat 64 fid)).getUInt 32 = fid := by
    change (BitVec.ofNat 64 fid).toNat % 2 ^ 32 = fid
    rw [BitVec.toNat_ofNat]
    omega
  rw [SysTableTable.ofData, hget 0 (by decide), hget 1 (by decide), hget 2 (by decide),
    hget 3 (by decide), hget 5 (by decide)]
  change SysTableTable.mk _ _ _ _
    ((fieldOf (withTabfid fid data) SysTableTable.tabfidColid).getUInt 32) _ = _
  rw [hset, hval]
  rfl

section Stores

variable {builtin : BuiltinTable} {files : VolatileFiles}

theorem InitializedFiles.holdsRows (h : InitializedFiles secs fidOf files)
    (hnodup : (secs.map (·.tabid)).Nodup)
    (hline : ∀ sec ∈ secs, sec.FromTableLine builtin)
    (hrows : ∀ sec ∈ secs, ∀ row ∈ sec.rows, ∃ toks, dataRow builtin sec.schema toks = some row)
    (hk : k ∈ systabids) {sec : InitSection} (hsec : sec ∈ secs) (htabid : sec.tabid = k)
    (hfilled : sec.rows ≠ []) (htypes : sec.HasTypesOf k) :
    ∃ fid f, fidOf k = some fid ∧ files.file? fid = some f ∧ f.offsets.length = f.records.length ∧
      HoldsRows k f (((Content.ofSections secs).withFids fidOf).rows k) := by
  have hmem : sec ∈ filledSections secs := List.mem_filter.mpr ⟨hsec, decide_eq_true hfilled⟩
  obtain ⟨fid, f, recs, hfid, hf, hrecs, hstored⟩ := h.filed sec hmem
  refine ⟨fid, f, htabid ▸ hfid, hf, by rw [hrecs.length_eq, hrecs.records_eq], ?_⟩
  have hbare := htypes.bare_eq hk (hline sec hsec)
  by_cases hself : k = tabTable
  · rw [if_pos (htabid.trans hself)] at hstored
    subst hself
    have hdata : List.Forall₂ (fun row rec => FixedRow fidOf row rec ∧
        RowData (systableSchema tabTable) row) sec.rows recs := by
      refine forall₂_mem hstored fun row hrow rec hfixed => ⟨hfixed, ?_⟩
      obtain ⟨toks, htoks⟩ := hrows sec hsec row hrow
      exact rowData_of_bare hbare ((hline sec hsec).sectionSchema.rowData htoks)
    have hcontent : ((Content.ofSections secs).withFids fidOf).rows tabTable =
        sec.rows.map fun row => .table { SysTableTable.ofData
          ((systableSchema tabTable).decoded row) with
            tabfid := (fidOf (SysTableTable.ofData
              ((systableSchema tabTable).decoded row)).tabid).getD invalidFid } := by
      change (List.map _ (List.map _ (systableRows secs tabTable))).map _ = _
      rw [systableRows_eq hnodup hsec htabid, List.map_map, List.map_map, List.map_map]
      rfl
    rw [hcontent]
    refine holdsRows_of_forall₂ hdata hrecs.records_eq ?_
    rintro row rec ⟨⟨fid', -, hknown, hread⟩, hrow⟩
    refine ⟨_, hread, ?_⟩
    have hlen : ((systableSchema tabTable).decoded row).length = 6 := by
      rw [hrow.decoded.length]
      decide +kernel
    have htab : (SysTableTable.ofData ((systableSchema tabTable).decoded row)).tabid =
        (fieldOf ((systableSchema tabTable).decoded row) SysTableTable.tabidColid).getUInt 32 := rfl
    change SysTableStruct.table _ = _
    rw [ofData_withTabfid hlen (h.small _ _ hknown), htab, hknown]
    rfl
  · rw [if_neg (htabid ▸ hself)] at hstored
    rw [rows_withFids _ hself, rows_ofSections hk, systableRows_eq hnodup hsec htabid, List.map_map]
    refine holdsRows_of_forall₂ (htypes.storedRows hk (hline sec hsec) (hrows sec hsec) hstored)
      hrecs.records_eq fun row rec hrow => ⟨_, hrow.read, rfl⟩

theorem StandardSections.findTable (hstd : StandardSections secs) (hk : k ∈ systabids) :
    ∃ table, (Content.ofSections secs).findTable k = some table ∧
      table.tabncols = (systableColumnsOf k).length ∧ table.tabid = k := by
  obtain ⟨table, htable, hncols⟩ := Option.map_eq_some_iff.mp (hstd.tables k hk)
  have htabid := List.find?_some htable
  simp only [decide_eq_true_eq] at htabid
  refine ⟨table, htable, hncols, ?_⟩
  rw [htabid, oidOf, Nat.mod_eq_of_lt (mem_systabids_lt hk)]

theorem StandardSections.fidOf_eq (hstd : StandardSections secs) (hk : k ∈ systabids) {fid : Nat}
    (hknown : fidOf k = some fid) : ((Content.ofSections secs).withFids fidOf).fidOf k = fid := by
  obtain ⟨table, htable, -, htabid⟩ := hstd.findTable hk
  rw [Content.fidOf, findTable_withFids, htable]
  change (fidOf table.tabid).getD invalidFid = fid
  rw [htabid, hknown, Option.getD_some]

theorem InitializedFiles.holds (h : InitializedFiles secs fidOf files)
    (hstd : StandardSections secs) (hline : ∀ sec ∈ secs, sec.FromTableLine builtin)
    (hrows : ∀ sec ∈ secs, ∀ row ∈ sec.rows, ∃ toks, dataRow builtin sec.schema toks = some row)
    (hk : k ∈ systabids) :
    ∃ fid f, fidOf k = some fid ∧ files.file? fid = some f ∧ f.offsets.length = f.records.length ∧
      HoldsRows k f (((Content.ofSections secs).withFids fidOf).rows k) := by
  obtain ⟨sec, hsec, htabid, hfilled, htypes⟩ := hstd.sections k hk
  exact h.holdsRows hstd.sound.nodup hline hrows hk hsec htabid hfilled htypes

theorem InitializedFiles.stores (h : InitializedFiles secs fidOf files)
    (hstd : StandardSections secs) (hline : ∀ sec ∈ secs, sec.FromTableLine builtin)
    (hrows : ∀ sec ∈ secs, ∀ row ∈ sec.rows, ∃ toks, dataRow builtin sec.schema toks = some row) :
    Stores files ((Content.ofSections secs).withFids fidOf) := by
  obtain ⟨fid₀, -, hpage⟩ := h.page
  refine ⟨h.wellFormed, ⟨fun k hk => ?_, fun k hk k' hk' heq => ?_, hstd.columns, hstd.types⟩,
    fun k hk => ?_, _, hpage, ?_, ?_, ?_⟩
  · obtain ⟨table, htable, hncols, -⟩ := hstd.findTable hk
    rw [findTable_withFids, htable]
    exact ⟨_, rfl, hncols⟩
  · obtain ⟨fid, -, hknown, -⟩ := h.holds hstd hline hrows hk
    obtain ⟨fid', -, hknown', -⟩ := h.holds hstd hline hrows hk'
    rw [hstd.fidOf_eq hk hknown, hstd.fidOf_eq hk' hknown'] at heq
    subst heq
    exact h.injective k k' fid hknown hknown'
  · obtain ⟨fid, f, hknown, hf, -, hholds⟩ := h.holds hstd hline hrows hk
    rw [hstd.fidOf_eq hk hknown]
    exact ⟨f, hf, hholds⟩
  · exact Nat.lt_succ_self maxSysOid
  · exact (by decide : maxSysOid + 1 ≤ maxOid + 1)
  · refine ⟨fun r hr => ?_, hstd.issued.columns, hstd.issued.indexes, hstd.issued.indexColumns⟩
    obtain ⟨r', hr', rfl⟩ := List.mem_map.mp hr
    exact hstd.issued.tables r' hr'

theorem InitializedFiles.compact (h : InitializedFiles secs fidOf files)
    (hstd : StandardSections secs) (hline : ∀ sec ∈ secs, sec.FromTableLine builtin)
    (hrows : ∀ sec ∈ secs, ∀ row ∈ sec.rows, ∃ toks, dataRow builtin sec.schema toks = some row) :
    Compact ((Content.ofSections secs).withFids fidOf) files := by
  intro k hk
  obtain ⟨fid, f, hknown, hf, hlen, hholds⟩ := h.holds hstd hline hrows hk
  rw [hstd.fidOf_eq hk hknown, recordCount_eq hf, hlen, ← hholds.rows_eq, List.length_map]

end Stores

end

/-- An init data file as the build generates it. -/
def StandardData (num : Numbers) (builtin : BuiltinTable) (text : ByteString) : Prop :=
  ∃ secs, initSections num builtin text = some secs ∧ StandardSections secs

namespace CatCache

/-- After the initialization from such a file the files hold a content and no other records, the
cache agrees with them, and no identifier has been taken. -/
theorem initializeFromInitData_holding {num : Numbers} {others : BuiltinTable}
    {n lineno tabid : Nat} {text : ByteString} {st : CatCache} (hnum : num.InRange)
    (hstd : StandardData num (findBuiltinFunction num others) text)
    (h : initializeFromInitData num (findBuiltinFunction num others) n lineno tabid
      (.ofText text) new = (.ok (), st)) :
    ∃ secs fidOf, initSections num (findBuiltinFunction num others) text = some secs ∧
      Holding (findBuiltinFunction num others) ((Content.ofSections secs).withFids fidOf) st ∧
      Compact ((Content.ofSections secs).withFids fidOf) st.files ∧
      st.files.nextOid = maxSysOid + 1 := by
  obtain ⟨secs, hsecs, hstd⟩ := hstd
  obtain ⟨secs', hsecs', hfiles⟩ := initializeFromInitData_initializedFiles hnum h
  rw [hsecs] at hsecs'
  cases hsecs'
  obtain ⟨fidOf, hfiles⟩ := hfiles hstd.sound
  have hstores := hfiles.stores hstd (fromTableLine hsecs) (rows_of_initSections hsecs)
  have hcompact := hfiles.compact hstd (fromTableLine hsecs) (rows_of_initSections hsecs)
  obtain ⟨fid, hfid, hpage⟩ := hfiles.page
  have hnext : st.files.nextOid = maxSysOid + 1 := by
    rw [VolatileFiles.nextOid, hpage]
    rfl
  refine ⟨secs, fidOf, hsecs, ⟨hstores, ?_⟩, hcompact, hnext⟩
  obtain ⟨catcache, tabid2fid, files, files', hinit, -, -, st', hmin, rfl⟩ :=
    initializeFromInitData_ok h
  have hst : st'.files = files' := loadMinCache_files rfl hmin
  change Stores st'.files _ at hstores
  change st'.files.dbmetaPage = _ at hpage
  rw [hst] at hstores hpage
  cases n with
  | zero =>
      -- the descriptors are asked for
      obtain ⟨tableFid, st₁, -, hmin⟩ := bind_eq_ok_iff.mp hmin
      obtain ⟨tabdesc, st₂, -, hmin⟩ := bind_eq_ok_iff.mp hmin
      obtain ⟨u, st₃, -, hmin⟩ := bind_eq_ok_iff.mp hmin
      obtain ⟨typids, st₄, htypids, -⟩ := bind_eq_ok_iff.mp hmin
      cases htypids
  | succ n =>
      have hcoherent := loadMinCache_coherent (findBuiltinFunction_compares num others) hstores
        hpage rfl (hstd.fidOf_eq (by decide) hfid).symm hinit hmin
      have hnew : Coherent (findBuiltinFunction num others) true files'
          ((Content.ofSections secs).withFids fidOf) { st' with useIndex := false } :=
        ⟨hst, hcoherent.initialized, rfl, hcoherent.cachedRows, hcoherent.cachedTables,
          hcoherent.cachedIndexes, hcoherent.minCached⟩
      rw [← hst] at hnew
      exact hnew

end CatCache

/-- The sections leave nothing out that the initialization needs: there are only systables, each
row of `Table` is for one of them and has no file ID yet, and it has one row for each of them. -/
structure CompleteSections (secs : List InitSection) : Prop where
  standard : StandardSections secs
  systables : ∀ sec ∈ secs, sec.tabid ∈ systabids ∧ sec.rows ≠ [] ∧ sec.HasTypesOf sec.tabid
  room : ∀ sec ∈ secs, sec.rows.length ≤ 65534
  tables : ∀ r ∈ (Content.ofSections secs).tables, r.tabfid = invalidFid ∧ r.tabid ∈ systabids
  once : (Content.ofSections secs).MinTablesOnce

section Complete

variable {num : Numbers} {others builtin : BuiltinTable} {secs : List InitSection}

theorem CompleteSections.filled (h : CompleteSections secs) : filledSections secs = secs :=
  List.filter_eq_self.mpr fun sec hsec => decide_eq_true (h.systables sec hsec).2.1

theorem CompleteSections.length_le (h : CompleteSections secs) : secs.length ≤ 8 := by
  have hsub : secs.map (·.tabid) ⊆ systabids := by
    intro tabid htabid
    obtain ⟨sec, hsec, rfl⟩ := List.mem_map.mp htabid
    exact (h.systables sec hsec).1
  have hlen := (h.standard.sound.nodup.subperm hsub).length_le
  rwa [List.length_map] at hlen

theorem CompleteSections.loadable (h : CompleteSections secs)
    (hline : ∀ sec ∈ secs, sec.FromTableLine (findBuiltinFunction num others)) :
    Loadable (findBuiltinFunction num others) secs := by
  refine ⟨fun sec hsec toks row hrow => ?_, fun sec hsec => ?_, h.room, ?_⟩
  · obtain ⟨hk, -, htypes⟩ := h.systables sec hsec
    exact htypes.exists_payload hk (hline sec hsec) (h.standard.sound.short sec hsec) hrow
  · exact (h.systables sec (List.mem_of_mem_tail hsec)).2.1
  · have := h.length_le
    omega

theorem CompleteSections.not_refused (h : CompleteSections secs) {page : DBMeta}
    {tabid2fid : Nat → Option Nat} {files : VolatileFiles}
    (hfiles : FilesOf (some page) secs tabid2fid files) {sec : InitSection} (hsec : sec ∈ secs)
    (htabid : sec.tabid = tabTable) : ¬ ∃ row ∈ sec.rows, RefusedRow tabid2fid row := by
  rintro ⟨row, hrow, hrefused⟩
  have hmem : SysTableTable.ofData ((systableSchema tabTable).decoded row) ∈
      (Content.ofSections secs).tables := by
    refine List.mem_map_of_mem ?_
    rw [systableRows_eq h.standard.sound.nodup hsec htabid]
    exact List.mem_map_of_mem hrow
  obtain ⟨hfid, htable⟩ := h.tables _ hmem
  obtain ⟨sec', hsec', htabid', -⟩ := h.standard.sections _ htable
  obtain ⟨fid, -, -, hknown, -⟩ := hfiles.filed sec' hsec'
  rw [htabid'] at hknown
  rcases hrefused with hne | hnone
  · exact hne hfid
  · have hnone' : tabid2fid (SysTableTable.ofData ((systableSchema tabTable).decoded row)).tabid =
        none := hnone
    rw [hknown] at hnone'
    cases hnone'

end Complete

namespace CatCache

theorem initializeFromInitData_succeeds {num : Numbers} {others : BuiltinTable} {text : ByteString}
    {secs : List InitSection} (n lineno tabid : Nat) (hnum : num.InRange)
    (hsecs : initSections num (findBuiltinFunction num others) text = some secs)
    (h : CompleteSections secs) :
    ∃ st, initializeFromInitData num (findBuiltinFunction num others) (n + 1) lineno tabid
      (.ofText text) new = (.ok (), st) := by
  have hline := fromTableLine hsecs
  have hrows := rows_of_initSections hsecs
  have hsound := h.standard.sound
  have hadm : Admissible (findBuiltinFunction num others) secs := by
    refine ⟨hsound.nodup, hsound.valid, boundedSections hnum hsecs, fun sec hsec => ?_⟩
    exact (hline sec hsec).sectionSchema.soundRows (hsound.short sec hsec)
  obtain ⟨descs, hinit⟩ := BootstrapCatCache.init_succeeds (findBuiltinFunction num others)
  obtain ⟨tabid2fid, files, hload⟩ : ∃ tabid2fid files,
      loadInitFile num (findBuiltinFunction num others) (.ofText text) lineno tabid
        { systables := [], dbmetaPage := some initialPage } = (.ok tabid2fid, files) :=
    loadInitFile_succeeds hsecs hadm (h.loadable hline)
  obtain ⟨final, hfinal, hfiles⟩ := loadInitFile_ok hload
  rw [hsecs] at hfinal
  cases hfinal
  have hfilesOf : FilesOf (some initialPage) (filledSections secs) tabid2fid files := hfiles hadm
  have hall := hfilesOf
  rw [h.filled] at hall
  obtain ⟨sec, hsec, htabid, hfilled, htypes⟩ := h.standard.sections tabTable (by decide)
  obtain ⟨fid, hfid, hcases⟩ := finishInitCatalog_cases hinit hall hsec htabid htypes
    (hline sec hsec) (hrows sec hsec)
  rcases hcases with ⟨recs, f', hnew, hrecs, hrun⟩ | ⟨hrefused, -⟩
  · have hmem : sec ∈ filledSections secs := by rwa [h.filled]
    have hfinished := hfilesOf.finished hsound.nodup hmem htabid hfid hnew hrecs
    have hstores := hfinished.stores h.standard hline hrows
    have honce : ((Content.ofSections secs).withFids tabid2fid).MinTablesOnce := by
      have honce := h.once
      unfold Content.MinTablesOnce at honce ⊢
      rw [Content.withFids, List.countP_map]
      exact honce
    have hroot := (h.standard.fidOf_eq (by decide) hfid).symm
    rcases loadMinCache_cases (findBuiltinFunction_compares num others) hstores rfl rfl hroot hinit n
      with ⟨st, hmin, -⟩ | ⟨hnot, -⟩
    · exact ⟨_, initializeFromInitData_of_parts hinit hload hrun hmin⟩
    · exact absurd honce hnot
  · exact absurd hrefused (h.not_refused hall hsec htabid)

end CatCache

section Generated

variable {c : Content}

theorem Content.eq_of_rows {c' : Content} (h : ∀ k ∈ systabids, c.rows k = c'.rows k) : c = c' := by
  have hlist : ∀ {α : Type} (kind : RowKind α), kind.list c = kind.list c' := by
    intro α kind
    have hrows := h kind.systabid kind.mem
    rw [kind.rows_eq, kind.rows_eq] at hrows
    exact List.map_injective_iff.mpr kind.wrap_injective hrows
  have htables := hlist .table
  have htypes := hlist .type
  have hcolumns := hlist .column
  have hfunctions := hlist .function
  have hargs := hlist .functionArgs
  have hoperators := hlist .operator
  have hindexes := hlist .index
  have hindexColumns := hlist .indexColumn
  cases c
  cases c'
  exact congr (congr (congr (congr (congr (congr (congr (congrArg Content.mk htables) htypes)
    hcolumns) hfunctions) hargs) hoperators) hindexes) hindexColumns

def Content.sections (c : Content) : List InitSection := (systabids.map c.section).reverse

theorem Content.mem_sections {sec : InitSection} :
    sec ∈ c.sections ↔ ∃ k ∈ systabids, c.section k = sec := by
  rw [sections, List.mem_reverse, List.mem_map]

theorem Content.sections_nodup (c : Content) : (c.sections.map (·.tabid)).Nodup := by
  have hids : c.sections.map (·.tabid) = systabids.reverse := by
    rw [sections, List.map_reverse, List.map_map]
    exact congrArg List.reverse (List.map_id systabids)
  rw [hids]
  decide

theorem Content.ofSections_sections (hc : c.Printable) : Content.ofSections c.sections = c := by
  refine eq_of_rows fun k hk => ?_
  have hsec : c.section k ∈ c.sections := mem_sections.mpr ⟨k, hk, rfl⟩
  have htabid : (c.section k).tabid = k := rfl
  rw [rows_ofSections hk, systableRows_eq c.sections_nodup hsec htabid]
  change ((((c.rows k).map fun row => row.values.map RowValue.datum).map
    (systableSchema k).decoded).map (SysTableStruct.ofData k)) = c.rows k
  rw [List.map_map, List.map_map]
  refine (List.map_congr_left fun row hrow => ?_).trans (List.map_id _)
  exact ofData_values hk (hc k hk row hrow)

/-- A catalog that the initialization can make: its rows can be printed, it describes the
systables, and it has rows for nothing else that has a file. -/
structure Content.Complete (c : Content) : Prop where
  printable : c.Printable
  filled : ∀ k ∈ systabids, c.rows k ≠ [] ∧ (c.rows k).length ≤ 65534
  tables : ∀ k ∈ systabids, (c.findTable k).map (·.tabncols) =
    some ((systableColumnsOf k).length : Int)
  columns : ∀ k ∈ systabids, c.columnsOf k = systableColumnsOf k
  types : c.types = typeRows
  issued : c.Issued (maxSysOid + 1)
  unfiled : ∀ r ∈ c.tables, r.tabfid = invalidFid ∧ r.tabid ∈ systabids
  once : c.MinTablesOnce

theorem Content.Complete.completeSections (h : c.Complete) : CompleteSections c.sections := by
  have hcontent := ofSections_sections h.printable
  have hsection : ∀ k ∈ systabids, (c.section k).rows ≠ [] ∧ (c.section k).HasTypesOf k := by
    intro k hk
    refine ⟨fun hnil => (h.filled k hk).1 (List.map_eq_nil_iff.mp hnil), ?_⟩
    have hfields := congrArg (List.map Prod.fst) (sectionSchema_spec hk documentedBuiltins).2.2
    rw [List.map_map, List.map_map] at hfields
    exact hfields
  have hshort : ∀ k ∈ systabids, ∀ col ∈ systableColumnsOf k, col.coltypparam ≤ namelen := by
    decide +kernel
  refine ⟨⟨⟨c.sections_nodup, ?_, ?_, ?_⟩, ?_, ?_, ?_, ?_, ?_⟩, ?_, ?_, ?_, ?_⟩
  · intro sec hsec
    obtain ⟨k, hk, rfl⟩ := mem_sections.mp hsec
    exact (by decide : ∀ k ∈ systabids, k ≠ invalidOid) k hk
  · intro sec hsec f hf _
    obtain ⟨k, hk, rfl⟩ := mem_sections.mp hsec
    have hmem : (f.typid, f.typparam) ∈
        (sectionSchema k).field.map fun f => (f.typid, f.typparam) :=
      List.mem_map_of_mem (List.mem_of_mem_take hf)
    rw [(sectionSchema_spec hk documentedBuiltins).2.2] at hmem
    obtain ⟨col, hcol, heq⟩ := List.mem_map.mp hmem
    rw [← (Prod.mk.inj heq).2]
    exact hshort k hk col hcol
  · intro k _ sec hsec htabid
    obtain ⟨k', hk', rfl⟩ := mem_sections.mp hsec
    obtain rfl : k' = k := htabid
    exact (hsection k' hk').2
  · exact fun k hk => ⟨_, mem_sections.mpr ⟨k, hk, rfl⟩, rfl, hsection k hk⟩
  · rw [hcontent]
    exact h.tables
  · rw [hcontent]
    exact h.columns
  · rw [hcontent]
    exact h.types
  · rw [hcontent]
    exact h.issued
  · intro sec hsec
    obtain ⟨k, hk, rfl⟩ := mem_sections.mp hsec
    exact ⟨hk, hsection k hk⟩
  · intro sec hsec
    obtain ⟨k, hk, rfl⟩ := mem_sections.mp hsec
    rw [Content.section, systableSection, List.length_map]
    exact (h.filled k hk).2
  · rw [hcontent]
    exact h.unfiled
  · rw [hcontent]
    exact h.once

end Generated

section Sample

/-- The systables, their columns and the types, the comparisons of `INT4`, and an index. -/
def sampleContent : Content :=
  { tables := ["Table", "Type", "Column", "Function", "FunctionArgs", "Operator", "Index",
      "IndexColumn"].zipIdx.map fun (name, i) =>
        BootstrapCatCache.tableRow (i + 1) (systableColumnsOf (i + 1)) name
    types := typeRows
    columns := systabids.flatMap systableColumnsOf
    functions := [⟨568, 2, typBool, ascii "INT4_eq"⟩, ⟨570, 2, typBool, ascii "INT4_lt"⟩]
    functionArgs := [⟨568, 0, 104⟩, ⟨568, 1, 104⟩, ⟨570, 0, 104⟩, ⟨570, 1, 104⟩]
    operators := [⟨OpType.eq, 568, 104, 104⟩, ⟨OpType.lt, 570, 104, 104⟩]
    indexes := [⟨1500, tabIndex, 0, true, 1, invalidFid, ascii "Index_idxid"⟩]
    indexColumns := [⟨1500, 0, 0, typOid, false, 0, 742, 744⟩] }

theorem sampleContent_isComplete : sampleContent.Complete := by
  refine ⟨?_, ?_, ?_, ?_, rfl, ?_, ?_, ?_⟩
  · unfold Content.Printable
    decide +kernel
  · decide +kernel
  · decide +kernel
  · decide +kernel
  · constructor <;> decide +kernel
  · decide +kernel
  · rw [Content.MinTablesOnce]
    decide +kernel

theorem documentedNumbers_readsPrinted : documentedNumbers.ReadsPrinted := by
  refine ⟨fun t _ x hx => ?_, fun v => ?_⟩
  · change (decimalInteger (ascii (toString x))).filter _ = _
    rw [ascii_toString, decimalInteger_decimalText, Option.filter_some, if_pos]
    exact decide_eq_true hx
  · cases v
    · decide +kernel
    · decide +kernel

theorem sampleContent_complete : ∃ secs,
    initSections documentedNumbers documentedBuiltins sampleContent.initData = some secs ∧
      CompleteSections secs ∧ Content.ofSections secs = sampleContent :=
  ⟨sampleContent.sections,
    initSections_initData documentedNumbers_readsPrinted sampleContent_isComplete.printable,
    sampleContent_isComplete.completeSections,
    Content.ofSections_sections sampleContent_isComplete.printable⟩

theorem documentedNumbers_inRange : documentedNumbers.InRange := by
  intro t str x h
  have hmem := (Option.filter_eq_some_iff.mp h).2
  exact of_decide_eq_true hmem

/-- The state that a call leaves, which the kernel need not compute to find it in a term. -/
def stateLeft {α : Type} (result : Except Failure α × CatCache) : CatCache := result.2

def sampleState : CatCache :=
  stateLeft (CatCache.initializeFromInitData documentedNumbers documentedBuiltins 2 0 0
    (.ofText sampleContent.initData) CatCache.new)

theorem sampleState_initialized :
    CatCache.initializeFromInitData documentedNumbers documentedBuiltins 2 0 0
      (.ofText sampleContent.initData) CatCache.new = (.ok (), sampleState) := by
  obtain ⟨secs, hsecs, hcomplete, -⟩ := sampleContent_complete
  obtain ⟨st, hst⟩ := CatCache.initializeFromInitData_succeeds 1 0 0 documentedNumbers_inRange
    hsecs hcomplete
  have hinit : CatCache.initializeFromInitData documentedNumbers documentedBuiltins 2 0 0
      (.ofText sampleContent.initData) CatCache.new = (.ok (), st) := hst
  rw [sampleState, hinit, stateLeft]

end Sample

end Taco
