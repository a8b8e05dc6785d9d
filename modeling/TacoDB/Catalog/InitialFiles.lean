import TacoDB.Catalog.FinishInitCatalog

/-!
# The files after the initialization

What `InitializeFromInitData` leaves in the files when it returns. `LoadMinCache` and
`CheckIndexes` only read them, so they are those of `LoadInitFile` with the file IDs that
`FinishInitCatalog` has entered.
-/

namespace Taco

open Eff Initoids Buffer InitDataFileReader Schema

/-- Whatever the outcome, the files are left as they are while the cache is not initialized. -/
def KeepsFiles {α : Type} (x : Eff Failure CatCache α) : Prop :=
  Keeps (fun st st' => st.initialized = false → st'.initialized = false ∧ st'.files = st.files) x

def ReadsFiles {α : Type} (x : Eff Failure VolatileFiles α) : Prop := ∀ st, (x st).2 = st

namespace ReadsFiles

variable {α β : Type}

theorem pure (a : α) : ReadsFiles (Pure.pure a) := fun _ => rfl

theorem fail (e : Failure) : ReadsFiles (Eff.fail e : Eff Failure VolatileFiles α) := fun _ => rfl

theorem getState : ReadsFiles Eff.getState := fun _ => rfl

theorem ofExcept (x : Except Failure α) : ReadsFiles (Eff.ofExcept x) := fun _ => rfl

theorem bind {x : Eff Failure VolatileFiles α} {f : α → Eff Failure VolatileFiles β}
    (hx : ReadsFiles x) (hf : ∀ a, ReadsFiles (f a)) : ReadsFiles (x >>= f) :=
  Keeps.bind (R := fun st st' => st' = st) (fun _ _ _ h h' => h'.trans h) hx hf

theorem ite {c : Prop} [Decidable c] {x y : Eff Failure VolatileFiles α}
    (hx : ReadsFiles x) (hy : ReadsFiles y) : ReadsFiles (if c then x else y) := by
  split
  · exact hx
  · exact hy

theorem assert (cond : Bool) (text : String) : ReadsFiles (Taco.assert cond text) :=
  ite (pure ()) (fail _)

theorem openCatalogFile (fid : Nat) : ReadsFiles (Taco.openCatalogFile fid) :=
  bind getState fun _ => ite (fail _) (pure fid)

theorem systable (fid : Nat) : ReadsFiles (Taco.systable fid) := by
  refine bind getState fun st => ?_
  cases st.file? fid with
  | none => exact fail _
  | some f => exact pure f

theorem iterateCatEntry (fh : Nat) : ReadsFiles (Taco.iterateCatEntry fh) :=
  bind (systable fh) fun _ => pure _

theorem nextCatEntry (iter : CatFileIterator) : ReadsFiles (Taco.nextCatEntry iter) := by
  refine bind (systable _) fun f => bind (assert _ _) fun _ => bind (ofExcept _) fun idx? => ?_
  cases idx? with
  | none => exact pure _
  | some idx => exact pure _

theorem getCurrentCatEntry (iter : CatFileIterator) : ReadsFiles (Taco.getCurrentCatEntry iter) := by
  refine bind (bind (systable _) fun f => bind (ofExcept _) fun v => bind (assert _ _) fun _ => ?_)
    fun _ => pure _
  cases f.offsets[iter.curIdx]? with
  | none => exact fail _
  | some off => exact pure _

end ReadsFiles

namespace KeepsFiles

variable {α β : Type}

theorem pure (a : α) : KeepsFiles (Pure.pure a) := Keeps.pure (fun _ h => ⟨h, rfl⟩) a

theorem fail (e : Failure) : KeepsFiles (Eff.fail e : Eff Failure CatCache α) :=
  Keeps.fail (fun _ h => ⟨h, rfl⟩) e

theorem getState : KeepsFiles Eff.getState := Keeps.getState fun _ h => ⟨h, rfl⟩

theorem ofExcept (x : Except Failure α) : KeepsFiles (Eff.ofExcept x) :=
  Keeps.ofExcept (fun _ h => ⟨h, rfl⟩) x

theorem modifyState {f : CatCache → CatCache}
    (h : ∀ st, (f st).initialized = st.initialized ∧ (f st).files = st.files) :
    KeepsFiles (Eff.modifyState f) := by
  intro st hst
  obtain ⟨hinit, hfiles⟩ := h st
  exact ⟨hinit.trans hst, hfiles⟩

theorem onFiles {x : Eff Failure VolatileFiles α} (hx : ReadsFiles x) :
    KeepsFiles (CatCache.onFiles x) :=
  fun st hst => ⟨hst, hx st.files⟩

theorem bind {x : Eff Failure CatCache α} {f : α → Eff Failure CatCache β}
    (hx : KeepsFiles x) (hf : ∀ a, KeepsFiles (f a)) : KeepsFiles (x >>= f) := by
  refine Keeps.bind (fun st st' st'' h h' hst => ?_) hx hf
  obtain ⟨hinit, hfiles⟩ := h hst
  obtain ⟨hinit', hfiles'⟩ := h' hinit
  exact ⟨hinit', hfiles'.trans hfiles⟩

theorem ite {c : Prop} [Decidable c] {x y : Eff Failure CatCache α}
    (hx : KeepsFiles x) (hy : KeepsFiles y) : KeepsFiles (if c then x else y) := by
  split
  · exact hx
  · exact hy

theorem assert (cond : Bool) (text : String) : KeepsFiles (Taco.assert cond text) :=
  ite (pure ()) (fail _)

theorem getOrCreateCachedEntry (noCache : Bool) (systabid : Nat) (recid : RecordId)
    (schema : Schema) (buf : ByteString) :
    KeepsFiles (CatCache.getOrCreateCachedEntry noCache systabid recid schema buf) := by
  refine bind getState fun st => ?_
  cases (if noCache then none else st.recidLookupTable recid) with
  | some row => exact pure row
  | none =>
      refine bind (ofExcept _) fun data => bind (ofExcept _) fun row => ite (pure row) ?_
      exact bind (modifyState fun _ => ⟨rfl, rfl⟩) fun _ => pure row

theorem of_ok {x : Eff Failure CatCache α} (hx : KeepsFiles x) {st st' : CatCache} {a : α}
    (hst : st.initialized = false) (h : x st = (.ok a, st')) :
    st'.initialized = false ∧ st'.files = st.files := by
  have hkeeps := hx st hst
  rwa [h] at hkeeps

section Lookups

variable {builtin : BuiltinTable} {fd : Nat → Eff Failure CatCache (Option TableDesc)}

theorem findTableDesc (n tabid : Nat) : KeepsFiles (CatCache.findTableDesc builtin n tabid) := by
  cases n with
  | zero => exact fail _
  | succ n =>
      intro st hst
      cases hdesc : st.tableDesc tabid with
      | none =>
          obtain ⟨e, he⟩ : ∃ e, CatCache.findTableDesc builtin (n + 1) tabid st = (.error e, st) :=
            CatCache.findTableDesc_uninitialized hst hdesc
          rw [he]
          exact ⟨hst, rfl⟩
      | some desc =>
          rw [CatCache.findTableDesc_cached hdesc]
          exact ⟨hst, rfl⟩

theorem searchLoop (mode : SearchMode) (systabid : Nat) (schema : Schema)
    (preds : List Predicate) (n : Nat) (fiter : CatFileIterator) (ret : List SysTableStruct) :
    KeepsFiles (CatCache.searchLoop builtin mode systabid schema preds n fiter ret) := by
  induction n generalizing fiter ret with
  | zero => exact fail _
  | succ n ih =>
      refine bind (onFiles (.nextCatEntry _)) fun next => ite (pure ret) ?_
      refine bind (onFiles (.getCurrentCatEntry _)) fun recbuf => bind (ofExcept _) fun equal => ?_
      refine ite (bind (getOrCreateCachedEntry _ _ _ _ _) fun row => ite (pure _) ?_) ?_
      · exact ih _ _
      · exact ih _ _

theorem searchForCatalogEntry (hfd : ∀ tabid, KeepsFiles (fd tabid)) (mode : SearchMode)
    (systabid : Nat) (preds : List Predicate) :
    KeepsFiles (CatCache.searchForCatalogEntry builtin fd mode systabid preds) := by
  refine bind (assert _ _) fun _ => ite (fail _) (bind (hfd _) fun desc? => ?_)
  cases desc? with
  | none => exact fail _
  | some desc =>
      refine bind getState fun st => ite (fail _) (bind (onFiles (.openCatalogFile _)) fun fh => ?_)
      exact bind (onFiles (.iterateCatEntry _)) fun fiter => searchLoop _ _ _ _ _ _ _

theorem findTable (hfd : ∀ tabid, KeepsFiles (fd tabid)) (tabid : Nat) :
    KeepsFiles (CatCache.findTable builtin fd tabid) := by
  refine bind (bind (searchForCatalogEntry hfd _ _ _) fun rows => pure _) fun row? => ?_
  cases row? with
  | none => exact pure _
  | some row => exact bind (ofExcept _) fun _ => pure _

theorem minTypids (hfd : ∀ tabid, KeepsFiles (fd tabid)) (tabids : List Nat) :
    KeepsFiles (CatCache.minTypids fd tabids) := by
  induction tabids with
  | nil => exact pure _
  | cons tabid tabids ih =>
      refine bind (hfd tabid) fun desc? => ?_
      cases desc? with
      | none => exact fail _
      | some desc => exact bind ih fun typids => pure _

theorem loadMinFile (fid : Nat) (schema : Schema) (oidColid : Nat) (oids : List Nat) (total : Nat)
    {load : ByteString → RecordId → Nat → Eff Failure CatCache Unit}
    (hload : ∀ buf recid oid, KeepsFiles (load buf recid oid)) :
    KeepsFiles (CatCache.loadMinFile fid schema oidColid oids total load) := by
  have hrows : ∀ n fiter nfound,
      KeepsFiles (CatCache.loadMinRows schema oidColid oids total load n fiter nfound) := by
    intro n
    induction n with
    | zero => exact fun _ _ => fail _
    | succ n ih =>
        intro fiter nfound
        refine bind (onFiles (.nextCatEntry _)) fun next => ite (pure ()) ?_
        refine bind (onFiles (.getCurrentCatEntry _)) fun buf => bind (ofExcept _) fun oid => ?_
        refine ite (bind (hload _ _ _) fun _ => ite (pure ()) (ih _ _)) (ih _ _)
  exact bind (onFiles (.openCatalogFile fid)) fun fh =>
    bind (onFiles (.iterateCatEntry fh)) fun fiter => hrows _ _ _

end Lookups

theorem readTableFid : KeepsFiles CatCache.readTableFid := by
  refine bind (onFiles (.openCatalogFile _)) fun _ => bind getState fun st => ?_
  cases st.files.dbmetaPage with
  | none => exact fail _
  | some page => exact ite (fail _) (pure _)

theorem loadMinTable (catcache : List TableDesc) (schema : Schema) (buf : ByteString)
    (recid : RecordId) (tabid : Nat) :
    KeepsFiles (CatCache.loadMinTable catcache schema buf recid tabid) :=
  bind (getOrCreateCachedEntry _ _ _ _ _) fun _ => bind (ofExcept _) fun _ =>
    bind (ofExcept _) fun _ => modifyState fun _ => ⟨rfl, rfl⟩

end KeepsFiles

theorem CatCache.loadMinCache_files {builtin : BuiltinTable} {n : Nat} {catcache : List TableDesc}
    {st st' : CatCache} (hst : st.initialized = false)
    (h : loadMinCache builtin (findTableDesc builtin n) catcache st = (.ok (), st')) :
    st'.files = st.files := by
  have hfd : ∀ tabid, KeepsFiles (findTableDesc builtin n tabid) := KeepsFiles.findTableDesc n
  unfold loadMinCache at h
  obtain ⟨tableFid, st₁, h₁, h⟩ := bind_eq_ok_iff.mp h
  obtain ⟨hst₁, hfiles₁⟩ := KeepsFiles.readTableFid.of_ok hst h₁
  obtain ⟨tabdesc, st₂, h₂, h⟩ := bind_eq_ok_iff.mp h
  obtain ⟨hst₂, hfiles₂⟩ := (KeepsFiles.ofExcept _).of_ok hst₁ h₂
  obtain ⟨u, st₃, h₃, h⟩ := bind_eq_ok_iff.mp h
  obtain ⟨hst₃, hfiles₃⟩ :=
    (KeepsFiles.loadMinFile _ _ _ _ _ fun _ _ _ => KeepsFiles.loadMinTable _ _ _ _ _).of_ok hst₂ h₃
  obtain ⟨typids, st₄, h₄, h⟩ := bind_eq_ok_iff.mp h
  obtain ⟨hst₄, hfiles₄⟩ := (KeepsFiles.minTypids hfd _).of_ok hst₃ h₄
  obtain ⟨table?, st₅, h₅, h⟩ := bind_eq_ok_iff.mp h
  obtain ⟨hst₅, hfiles₅⟩ := (KeepsFiles.findTable hfd _).of_ok hst₄ h₅
  have hall := hfiles₅.trans (hfiles₄.trans (hfiles₃.trans (hfiles₂.trans hfiles₁)))
  cases table? with
  | none => cases h
  | some table =>
      obtain ⟨typedesc, st₆, h₆, h⟩ := bind_eq_ok_iff.mp h
      obtain ⟨hst₆, hfiles₆⟩ := (KeepsFiles.ofExcept _).of_ok hst₅ h₆
      obtain ⟨u₇, st₇, h₇, h⟩ := bind_eq_ok_iff.mp h
      obtain ⟨-, hfiles₇⟩ := (KeepsFiles.loadMinFile _ _ _ _ _ fun _ _ _ =>
        .bind (.getOrCreateCachedEntry _ _ _ _ _) fun _ => .pure _).of_ok hst₆ h₇
      obtain ⟨-, rfl⟩ := Prod.mk.inj h
      exact hfiles₇.trans (hfiles₆.trans hall)

def initialPage : DBMeta :=
  { magic := dbmetaMagic, nextOid := maxSysOid + 1, systableTableFid := invalidFid }

def initialFiles : VolatileFiles := { systables := [], dbmetaPage := some initialPage }

theorem createDBMeta_eq : createDBMeta .empty = (.ok (), initialFiles) := by
  have hcreate : createCatalogFile false .empty =
      (.ok dbmetaFid, { systables := [], dbmetaPage := some ⟨0, 0, 0⟩ }) := rfl
  rw [createDBMeta, bind_of_ok hcreate, if_neg (not_not_intro rfl)]
  rfl

/-- The sections of an init data file: each table has one, and the columns of the systables that
the initialization itself reads have their types. -/
structure SoundSections (secs : List InitSection) : Prop where
  nodup : (secs.map (·.tabid)).Nodup
  valid : ∀ sec ∈ secs, sec.tabid ≠ invalidOid
  short : ∀ sec ∈ secs, ShortNames sec.schema
  types : ∀ k ∈ CatCache.minTables, ∀ sec ∈ secs, sec.tabid = k → sec.HasTypesOf k

def filledSections (secs : List InitSection) : List InitSection := secs.filter fun sec => sec.rows ≠ []

/-- The files that `InitializeFromInitData` leaves: each section that has rows has them in a
file of its own, and those of `Table` name the files. -/
structure InitializedFiles (secs : List InitSection) (tabid2fid : Nat → Option Nat)
    (files : VolatileFiles) : Prop where
  wellFormed : files.WellFormed
  count : files.systables.length = (filledSections secs).length
  small : ∀ tabid fid, tabid2fid tabid = some fid → fid < 2 ^ 32
  injective : ∀ tabid tabid' fid, tabid2fid tabid = some fid → tabid2fid tabid' = some fid →
    tabid = tabid'
  known : ∀ tabid fid, tabid2fid tabid = some fid → ∃ sec ∈ filledSections secs, sec.tabid = tabid
  filed : ∀ sec ∈ filledSections secs, ∃ fid f recs, tabid2fid sec.tabid = some fid ∧
    files.file? fid = some f ∧ f.HasRecords recs ∧
      if sec.tabid = tabTable then List.Forall₂ (FixedRow tabid2fid) sec.rows recs
      else sec.StoredAs recs
  page : ∃ fid, tabid2fid tabTable = some fid ∧
    files.dbmetaPage = some { initialPage with systableTableFid := fid }

section Finished

variable {builtin : BuiltinTable} {secs : List InitSection} {sec : InitSection}
  {tabid2fid : Nat → Option Nat} {files : VolatileFiles} {fid : Nat} {f' : InmemFile}
  {new : List ByteString}

theorem FilesOf.finished (h : FilesOf (some initialPage) (filledSections secs) tabid2fid files)
    (hnodup : (secs.map (·.tabid)).Nodup) (hsec : sec ∈ filledSections secs)
    (htabid : sec.tabid = tabTable) (hfid : tabid2fid tabTable = some fid)
    (hnew : List.Forall₂ (FixedRow tabid2fid) sec.rows new) (hrecs : f'.HasRecords new) :
    InitializedFiles secs tabid2fid { files.setFile fid f' with
      dbmetaPage := some { initialPage with systableTableFid := fid } } := by
  obtain ⟨fid', f, recs, hfid', hf, -, -⟩ := h.filed sec hsec
  rw [htabid, hfid] at hfid'
  cases hfid'
  have hfile : ∀ fid', VolatileFiles.file? { files.setFile fid f' with
      dbmetaPage := some { initialPage with systableTableFid := fid } } fid' =
        (files.setFile fid f').file? fid' := fun _ => rfl
  refine ⟨h.wellFormed.setFile hrecs.wellFormed fid, ?_, ?_, h.injective, h.known, ?_, fid, hfid, rfl⟩
  · exact List.length_set.trans h.count
  · intro tabid fid' hfid'
    have hbound := h.bound tabid fid' hfid'
    have hfew := h.few
    rw [h.count] at hbound
    omega
  · intro sec' hsec'
    obtain ⟨fid', f₂, recs', hfid', hf₂, hrecs', hstored⟩ := h.filed sec' hsec'
    by_cases hself : sec'.tabid = tabTable
    · -- there is one section of `Table`
      have hsame : sec' = sec := by
        refine List.inj_on_of_nodup_map hnodup (List.mem_of_mem_filter hsec')
          (List.mem_of_mem_filter hsec) ?_
        rw [hself, htabid]
      subst hsame
      refine ⟨fid, f', new, by rw [hself, hfid], ?_, hrecs, ?_⟩
      · rw [hfile]
        exact VolatileFiles.file?_setFile_self hf _
      · rw [if_pos hself]
        exact hnew
    · have hne : fid ≠ fid' := by
        rintro rfl
        exact hself (h.injective _ _ _ hfid' hfid)
      refine ⟨fid', f₂, recs', hfid', ?_, hrecs', ?_⟩
      · rw [hfile, VolatileFiles.file?_setFile_of_ne hf hne, hf₂]
      · rw [if_neg hself]
        exact hstored

end Finished

namespace CatCache

section Initialize

variable {num : Numbers} {builtin : BuiltinTable} {n lineno tabid : Nat} {text : ByteString}
  {st : CatCache}

theorem initializeFromInitData_ok
    (h : initializeFromInitData num builtin n lineno tabid (.ofText text) new = (.ok (), st)) :
    ∃ catcache tabid2fid files files', BootstrapCatCache.init builtin = .ok catcache ∧
      loadInitFile num builtin (.ofText text) lineno tabid initialFiles = (.ok tabid2fid, files) ∧
      finishInitCatalog catcache tabid2fid files = (.ok (), files') ∧
      ∃ st', loadMinCache builtin (findTableDesc builtin n) catcache { new with files := files' } =
        (.ok (), st') ∧ st = { st' with useIndex := false } := by
  obtain ⟨catcache, st₁, h₁, h⟩ := bind_eq_ok_iff.mp h
  obtain ⟨hinit, rfl⟩ := Prod.mk.inj h₁
  obtain ⟨u₂, st₂, h₂, h⟩ := bind_eq_ok_iff.mp h
  have hcreate : onFiles createDBMeta new = (.ok (), { new with files := initialFiles }) := by
    have hempty : new.files = .empty := rfl
    rw [onFiles, hempty, createDBMeta_eq]
  rw [hcreate] at h₂
  obtain ⟨-, rfl⟩ := Prod.mk.inj h₂
  obtain ⟨tabid2fid, st₃, h₃, h⟩ := bind_eq_ok_iff.mp h
  obtain ⟨u₄, st₄, h₄, h⟩ := bind_eq_ok_iff.mp h
  obtain ⟨u₅, st₅, h₅, h⟩ := bind_eq_ok_iff.mp h
  obtain ⟨-, rfl⟩ := Prod.mk.inj h
  obtain ⟨hload, rfl⟩ := Prod.mk.inj h₃
  obtain ⟨hfinish, rfl⟩ := Prod.mk.inj h₄
  exact ⟨catcache, tabid2fid, _, _, hinit, Prod.ext hload rfl, Prod.ext hfinish rfl, st₅, h₅, rfl⟩

theorem onFiles_of_eq {α : Type} {x : Eff Failure VolatileFiles α} {st : CatCache}
    {files : VolatileFiles} {r : Except Failure α} (h : x st.files = (r, files)) :
    onFiles x st = (r, { st with files }) := by
  rw [onFiles, h]

theorem initializeFromInitData_of_parts {catcache : List TableDesc}
    {tabid2fid : Nat → Option Nat} {files files' : VolatileFiles}
    (hinit : BootstrapCatCache.init builtin = .ok catcache)
    (hload : loadInitFile num builtin (.ofText text) lineno tabid initialFiles =
      (.ok tabid2fid, files))
    (hfinish : finishInitCatalog catcache tabid2fid files = (.ok (), files'))
    (hmin : loadMinCache builtin (findTableDesc builtin n) catcache { new with files := files' } =
      (.ok (), st)) :
    initializeFromInitData num builtin n lineno tabid (.ofText text) new =
      (.ok (), { st with useIndex := false }) := by
  have hcreate : onFiles createDBMeta new = (.ok (), { new with files := initialFiles }) :=
    onFiles_of_eq createDBMeta_eq
  have hload' : onFiles (loadInitFile num builtin (.ofText text) lineno tabid)
      { new with files := initialFiles } = (.ok tabid2fid, { new with files }) :=
    onFiles_of_eq hload
  have hfinish' : onFiles (finishInitCatalog catcache tabid2fid) { new with files } =
      (.ok (), { new with files := files' }) := onFiles_of_eq hfinish
  rw [initializeFromInitData, hinit, bind_of_ok (ofExcept_apply _ _), bind_of_ok hcreate,
    bind_of_ok hload', bind_of_ok hfinish', bind_of_ok hmin]
  rfl

theorem initializeFromInitData_initializedFiles {others : BuiltinTable} (hnum : num.InRange)
    (h : initializeFromInitData num (findBuiltinFunction num others) n lineno tabid
      (.ofText text) new = (.ok (), st)) :
    ∃ secs, initSections num (findBuiltinFunction num others) text = some secs ∧
      (SoundSections secs → ∃ tabid2fid, InitializedFiles secs tabid2fid st.files) := by
  obtain ⟨catcache, tabid2fid, files, files', hinit, hload, hfinish, st', hmin, rfl⟩ :=
    initializeFromInitData_ok h
  obtain ⟨secs, hsecs, hfiles⟩ := loadInitFile_ok hload
  refine ⟨secs, hsecs, fun hsound => ⟨tabid2fid, ?_⟩⟩
  have hline := fromTableLine hsecs
  have hadm : Admissible (findBuiltinFunction num others) secs := by
    refine ⟨hsound.nodup, hsound.valid, boundedSections hnum hsecs, fun sec hsec => ?_⟩
    exact (hline sec hsec).sectionSchema.soundRows (hsound.short sec hsec)
  have hfilesOf := hfiles hadm
  have hst : st'.files = files' := loadMinCache_files rfl hmin
  change InitializedFiles secs tabid2fid st'.files
  rw [hst]
  -- the file of `Table` is there, or `FinishInitCatalog` would not have returned
  have hknown : ∃ fid, tabid2fid tabTable = some fid := by
    cases hfid : tabid2fid tabTable with
    | none =>
        rw [finishInitCatalog, hfid] at hfinish
        cases hfinish
    | some fid => exact ⟨fid, rfl⟩
  obtain ⟨fid₀, hfid₀⟩ := hknown
  obtain ⟨sec, hsec, htabid⟩ := hfilesOf.known _ _ hfid₀
  have hmem := List.mem_of_mem_filter hsec
  obtain ⟨fid, hfid, hcases⟩ := finishInitCatalog_cases hinit hfilesOf hsec htabid
    (hsound.types tabTable (by decide) sec hmem htabid) (hline sec hmem)
    (rows_of_initSections hsecs sec hmem)
  rcases hcases with ⟨new, f', hnew, hrecs, hrun⟩ | ⟨-, e, files'', hrun⟩
  · rw [hfinish] at hrun
    obtain ⟨-, rfl⟩ := Prod.mk.inj hrun
    exact hfilesOf.finished hsound.nodup hsec htabid hfid hnew hrecs
  · rw [hfinish] at hrun
    cases hrun

end Initialize

end CatCache

end Taco
