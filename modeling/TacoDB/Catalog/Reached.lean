import TacoDB.Catalog.IndexAdditions
import TacoDB.Catalog.StandardData

/-!
# The states of the catalog that are reached

The states of the catalog after an initialization and any calls, whatever the calls return.
The content of such a state is what the live records of the systables are read as, and the
files hold it.
-/

namespace Taco

open Eff Initoids CatCache InitDataFileReader

def VolatileFiles.datasIn (files : VolatileFiles) (systabid fid : Nat) : List (List Datum) :=
  (files.file? fid).elim [] fun f => f.records.map (systableSchema systabid).rowData

namespace CatCache

/-- The live records of `Table`, in the file that the descriptor of `Table` names. -/
def tables (st : CatCache) : List SysTableTable :=
  (st.files.datasIn tabTable ((st.tableDesc tabTable).elim invalidFid (·.table.tabfid))).map .ofData

/-- The live records of another systable, in the file that `Table` names. -/
def datasOf (st : CatCache) (systabid : Nat) : List (List Datum) :=
  st.files.datasIn systabid
    ((st.tables.find? (·.tabid = systabid)).elim invalidFid (·.tabfid))

def content (st : CatCache) : Content :=
  { tables := st.tables
    types := (st.datasOf tabType).map .ofData
    columns := (st.datasOf tabColumn).map .ofData
    functions := (st.datasOf tabFunction).map .ofData
    functionArgs := (st.datasOf tabFunctionArgs).map .ofData
    operators := (st.datasOf tabOperator).map .ofData
    indexes := (st.datasOf tabIndex).map .ofData
    indexColumns := (st.datasOf tabIndexColumn).map .ofData }

end CatCache

section Content

variable {builtin : BuiltinTable} {c : Content} {st : CatCache}

theorem Stores.datasIn {files : VolatileFiles} (hs : Stores files c) {α : Type}
    (kind : RowKind α) :
    (files.datasIn kind.systabid (c.fidOf kind.systabid)).map kind.ofData = kind.list c := by
  obtain ⟨f, hf, hrows⟩ := hs.holds kind.systabid kind.mem
  rw [kind.list_eq hrows, VolatileFiles.datasIn, hf]
  rfl

theorem Holding.tables_eq (h : Holding builtin c st) : st.tables = c.tables := by
  obtain ⟨desc, hdesc⟩ := Option.isSome_iff_exists.mp (h.coherent.minCached tabTable (by decide))
  obtain ⟨table, ht, -⟩ := h.stores.describes.tables tabTable (by decide)
  have hcached := h.coherent.cachedTables _ _ hdesc
  rw [h.stores.describes.findTableDesc builtin (by decide) ht] at hcached
  have hfid : (st.tableDesc tabTable).elim invalidFid (·.table.tabfid) = c.fidOf tabTable := by
    rw [hdesc, Content.fidOf, ht, ← Option.some.inj (Except.ok.inj hcached)]
    rfl
  rw [tables, hfid]
  exact h.stores.datasIn .table

theorem Holding.datasOf_eq (h : Holding builtin c st) {α : Type} (kind : RowKind α) :
    (st.datasOf kind.systabid).map kind.ofData = kind.list c := by
  have hfid : (st.tables.find? (·.tabid = kind.systabid)).elim invalidFid (·.tabfid) =
      c.fidOf kind.systabid := by
    have hoid := Nat.mod_eq_of_lt (mem_systabids_lt kind.mem)
    rw [h.tables_eq, Content.fidOf, Content.findTable, oidOf, hoid]
  rw [datasOf, hfid]
  exact h.stores.datasIn kind

theorem Holding.content_eq (h : Holding builtin c st) : st.content = c := by
  have htypes := h.datasOf_eq .type
  have hcolumns := h.datasOf_eq .column
  have hfunctions := h.datasOf_eq .function
  have hargs := h.datasOf_eq .functionArgs
  have hoperators := h.datasOf_eq .operator
  have hindexes := h.datasOf_eq .index
  have hindexColumns := h.datasOf_eq .indexColumn
  rw [content, h.tables_eq]
  exact congr (congr (congr (congr (congr (congr (congrArg (Content.mk c.tables) htypes) hcolumns)
    hfunctions) hargs) hoperators) hindexes) hindexColumns

end Content

def CatCall.FindsOrAdds : CatCall → Prop
  | .searchForCatalogEntry .. => False
  | _ => True

def CatCall.Finds : CatCall → Prop
  | .searchForCatalogEntry .. => False
  | .addTable _ => False
  | .addIndex _ => False
  | _ => True

section Calls

variable {builtin : BuiltinTable} {c : Content} {st : CatCache} {α : Type}

theorem snd_bind_pure (x : Eff Failure CatCache α) (st : CatCache) :
    ((x >>= fun _ => (pure () : Eff Failure CatCache Unit)) st).2 = (x st).2 := by
  rw [bind_apply]
  rcases x st with ⟨e | a, st'⟩
  · rfl
  · rfl

def Grown (builtin : BuiltinTable) (c : Content) (st st' : CatCache) : Prop :=
  ∃ c', c.Le c' ∧ Holding builtin c' st' ∧ (Compact c st.files → Compact c' st'.files)

theorem Kept.grown {st' : CatCache} (h : Kept builtin c st st') : Grown builtin c st st' :=
  ⟨c, .refl c, h.holding, h.compact⟩

theorem AddOutcome.grown {β : Type} {p : InsertKind α} {q : InsertKind β} {oid : Nat} {a : α}
    {l : List β} {out : Except Failure Nat × CatCache}
    (h : AddOutcome p q builtin c st oid a l out) : Grown builtin c st out.2 := by
  have hle : ∀ l : List β, c.Le (q.push (p.push c [p.stored a]) (l.map q.stored)) :=
    fun l => (p.le_push c _).trans (q.le_push _ _)
  cases h with
  | exhausted _ hkept => exact hkept.grown
  | rowRefused _ _ hkept => exact hkept.grown
  | added _ _ _ hadded => exact ⟨_, hle l, hadded.holding, hadded.compact⟩
  | @restRefused e st' l₁ b l₂ _ _ _ _ _ hadded => exact ⟨_, hle l₁, hadded.holding, hadded.compact⟩

theorem AddTableOutcome.grown {args : AddTableArgs} {out : Except Failure Nat × CatCache}
    (h : AddTableOutcome builtin c st args out) : Grown builtin c st out.2 := by
  cases h with
  | refused _ hkept => exact hkept.grown
  | accepted _ hout => exact hout.grown

theorem AddIndexOutcome.grown [StrJoin] {args : AddIndexArgs} {out : Except Failure Nat × CatCache}
    (h : AddIndexOutcome builtin c st args out) : Grown builtin c st out.2 := by
  cases h with
  | refused _ hkept => exact hkept.grown
  | accepted _ hout => exact hout.grown

theorem CatCall.exec_computes [StrJoin] (hcmp : builtin.Compares) {files : VolatileFiles}
    (hs : Stores files c) {call : CatCall} (hcall : call.Finds) (n : Nat) :
    ∃ y, Computes (Coherent builtin true files c) (call.exec builtin (n + 2)) y := by
  have hfd := fun k (hk : k ∈ systabids) => answers_findTableDesc hcmp hs n hk
  have hlookup : ∀ {α : Type} {x : Eff Failure CatCache α} {y : Except Failure α},
      Computes (Coherent builtin true files c) x y →
        ∃ y', Computes (Coherent builtin true files c) (x >>= fun _ => pure ()) y' :=
    fun hx => ⟨_, .bind hx fun _ _ => .ret ()⟩
  cases call with
  | findTable tabid => exact hlookup (findTable_computes hcmp hs (hfd tabTable (by decide)) tabid)
  | findTableByName tabname =>
      exact hlookup (findTableByName_computes hcmp hs (hfd tabTable (by decide)) tabname)
  | findTableDesc tabid => exact hlookup (findTableDesc_computes hcmp hs n tabid)
  | findType typid => exact hlookup (findType_computes hcmp hs (hfd tabType (by decide)) typid)
  | findFunction funcid =>
      exact hlookup (findFunction_computes hcmp hs (hfd tabFunction (by decide)) funcid)
  | findFunctionByName funcname =>
      exact hlookup (findFunctionByName_computes hcmp hs (hfd tabFunction (by decide)) funcname)
  | findFunctionArgs funcid funcargid =>
      exact hlookup
        (findFunctionArgs_computes hcmp hs (hfd tabFunctionArgs (by decide)) funcid funcargid)
  | findIndex idxid => exact hlookup (findIndex_computes hcmp hs (hfd tabIndex (by decide)) idxid)
  | findIndexByName idxname =>
      exact hlookup (findIndexByName_computes hcmp hs (hfd tabIndex (by decide)) idxname)
  | findAllIndexesOfTable idxtabid =>
      exact hlookup (findAllIndexesOfTable_computes hcmp hs (hfd tabIndex (by decide)) idxtabid)
  | findIndexDesc idxid => exact hlookup (findIndexDesc_computes hcmp hs hfd idxid)
  | findOperator optype oparg0typid oparg1typid =>
      exact hlookup (findOperator_computes hcmp hs (hfd tabOperator (by decide)) optype
        oparg0typid oparg1typid)
  | searchForCatalogEntry mode systabid preds => exact hcall.elim
  | addTable args => exact hcall.elim
  | addIndex args => exact hcall.elim

theorem Holding.find [StrJoin] (hcmp : builtin.Compares) (h : Holding builtin c st) {call : CatCall}
    (hcall : call.Finds) (n : Nat) :
    (callStep builtin (n + 2) st call).files = st.files ∧
      Holding builtin c (callStep builtin (n + 2) st call) := by
  obtain ⟨y, hy⟩ := CatCall.exec_computes hcmp h.stores hcall n
  obtain ⟨st', hrun, hfiles, hst'⟩ := h.computes hy
  rw [CatCache.callStep, hrun]
  exact ⟨hfiles, hst'⟩

theorem CatCall.finds_or_adds {call : CatCall} (h : call.FindsOrAdds) :
    call.Finds ∨ (∃ args, call = .addTable args) ∨ ∃ args, call = .addIndex args := by
  cases call with
  | searchForCatalogEntry mode systabid preds => exact h.elim
  | addTable args => exact .inr (.inl ⟨args, rfl⟩)
  | addIndex args => exact .inr (.inr ⟨args, rfl⟩)
  | _ => exact .inl trivial

theorem Holding.callStep [StrJoin] (hcmp : builtin.Compares) (h : Holding builtin c st)
    {call : CatCall} (hcall : call.FindsOrAdds) (n : Nat) :
    Grown builtin c st (callStep builtin (n + 2) st call) := by
  rcases CatCall.finds_or_adds hcall with hfinds | ⟨args, rfl⟩ | ⟨args, rfl⟩
  · obtain ⟨hfiles, hst'⟩ := h.find hcmp hfinds n
    exact (Kept.of_files_eq hst' hfiles).grown
  · have hgrown := (addTable_outcome hcmp n h args).grown
    rw [← snd_bind_pure] at hgrown
    exact hgrown
  · have hgrown := (addIndex_outcome hcmp n h args).grown
    rw [← snd_bind_pure] at hgrown
    exact hgrown

end Calls

/-- The states after an initialization from an init data file of the build and any calls that
look up or add, with at least two calls of `FindTableDesc` on the stack. -/
inductive Reached [StrJoin] (num : Numbers) (others : BuiltinTable) : CatCache → Prop
  | initialized {n lineno tabid text st}
      (standard : StandardData num (findBuiltinFunction num others) text)
      (returns : initializeFromInitData num (findBuiltinFunction num others) n lineno tabid
        (.ofText text) new = (.ok (), st)) : Reached num others st
  | called {st call} (h : Reached num others st) (finds : call.FindsOrAdds) (n : Nat) :
      Reached num others (callStep (findBuiltinFunction num others) (n + 2) st call)

section Reached

variable {num : Numbers} {others : BuiltinTable} {st : CatCache}

/-- The files of such a state hold its content and no other records, and the cache agrees with
it. -/
theorem Reached.holding [StrJoin] (hnum : num.InRange) (h : Reached num others st) :
    Holding (findBuiltinFunction num others) st.content st ∧ Compact st.content st.files := by
  have hcontent : ∃ c, Holding (findBuiltinFunction num others) c st ∧ Compact c st.files := by
    induction h with
    | initialized hstd hrun =>
        obtain ⟨secs, fidOf, -, hst, hcompact, -⟩ := initializeFromInitData_holding hnum hstd hrun
        exact ⟨_, hst, hcompact⟩
    | called _ hcall n ih =>
        obtain ⟨c, hst, hcompact⟩ := ih
        obtain ⟨c', -, hst', hcompact'⟩ :=
          hst.callStep (findBuiltinFunction_compares num others) hcall n
        exact ⟨c', hst', hcompact' hcompact⟩
  obtain ⟨c, hst, hcompact⟩ := hcontent
  rw [hst.content_eq]
  exact ⟨hst, hcompact⟩

theorem sampleState_reached [StrJoin] : Reached documentedNumbers (fun _ => none) sampleState := by
  obtain ⟨secs, hsecs, hcomplete, -⟩ := sampleContent_complete
  exact .initialized ⟨secs, hsecs, hcomplete.standard⟩ sampleState_initialized

theorem sampleState_holding : ∃ fidOf,
    Holding documentedBuiltins (sampleContent.withFids fidOf) sampleState ∧
      Compact (sampleContent.withFids fidOf) sampleState.files ∧
      sampleState.files.nextOid = maxSysOid + 1 := by
  obtain ⟨secs, hsecs, hcomplete, hcontent⟩ := sampleContent_complete
  obtain ⟨secs', fidOf, hsecs', hst, hcompact, hnext⟩ := initializeFromInitData_holding
    documentedNumbers_inRange ⟨secs, hsecs, hcomplete.standard⟩ sampleState_initialized
  have hsame : secs' = secs := by
    rw [show initSections documentedNumbers (findBuiltinFunction documentedNumbers fun _ => none)
      sampleContent.initData = some secs from hsecs] at hsecs'
    exact (Option.some.inj hsecs').symm
  rw [hsame, hcontent] at hst hcompact
  exact ⟨fidOf, hst, hcompact, hnext⟩

theorem sampleState_holds :
    Holding (findBuiltinFunction documentedNumbers fun _ => none) sampleState.content sampleState ∧
      Compact sampleState.content sampleState.files := by
  obtain ⟨fidOf, hst, hcompact, -⟩ := sampleState_holding
  rw [hst.content_eq]
  exact ⟨hst, hcompact⟩

end Reached

section Generated

variable {num : Numbers} {others : BuiltinTable} {c : Content}

/-- The catalog that is initialized from the data file of a content has this content, with a file
ID of its own for each systable and the first identifier to give out. -/
theorem initializeFromInitData_initData (hnum : num.InRange) (hreads : num.ReadsPrinted)
    (hc : c.Complete) (n lineno tabid : Nat) :
    ∃ fidOf st,
      initializeFromInitData num (findBuiltinFunction num others) (n + 1) lineno tabid
        (.ofText c.initData) new = (.ok (), st) ∧
      st.content = c.withFids fidOf ∧
      (∀ k ∈ systabids, ∀ k' ∈ systabids, st.content.fidOf k = st.content.fidOf k' → k = k') ∧
      Compact st.content st.files ∧ st.files.nextOid = maxSysOid + 1 := by
  have hsecs : initSections num (findBuiltinFunction num others) c.initData = some c.sections :=
    initSections_initData hreads hc.printable
  obtain ⟨st, hrun⟩ := initializeFromInitData_succeeds n lineno tabid hnum hsecs hc.completeSections
  have hstd : StandardData num (findBuiltinFunction num others) c.initData :=
    ⟨c.sections, hsecs, hc.completeSections.standard⟩
  obtain ⟨secs, fidOf, hsecs', hst, hcompact, hnext⟩ := initializeFromInitData_holding hnum hstd hrun
  rw [hsecs] at hsecs'
  cases hsecs'
  rw [Content.ofSections_sections hc.printable] at hst hcompact
  refine ⟨fidOf, st, hrun, hst.content_eq, ?_, ?_, hnext⟩
  · rw [hst.content_eq]
    exact hst.stores.describes.fids
  · rw [hst.content_eq]
    exact hcompact

theorem initializeFromInitData_initData_sample :
    ∃ fidOf st,
      initializeFromInitData documentedNumbers documentedBuiltins 1 0 0
        (.ofText sampleContent.initData) new = (.ok (), st) ∧
      st.content = sampleContent.withFids fidOf ∧
      (∀ k ∈ systabids, ∀ k' ∈ systabids, st.content.fidOf k = st.content.fidOf k' → k = k') ∧
      Compact st.content st.files ∧ st.files.nextOid = maxSysOid + 1 :=
  initializeFromInitData_initData documentedNumbers_inRange documentedNumbers_readsPrinted
    sampleContent_isComplete 0 0 0

end Generated

end Taco
