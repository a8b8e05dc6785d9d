import TacoDB.Catalog.Coherent

/-!
# The lookups of the catalog cache

Every lookup of `CatCacheBase` computes, on the coherent states, what the content says, and
leaves a coherent state with the same files. A lookup only needs the descriptor of the
systable it goes through; those of `Table`, `Type` and `Column` are in the cache, and with
them any descriptor can be made.
-/

namespace Taco

open Eff Initoids CatCache

section

variable {builtin : BuiltinTable} (hcmp : builtin.Compares) {α : Type} (kind : RowKind α)

theorem rowFields_field {k i : Nat} {data : List Datum} (h : RowFields k data)
    (hi : i < (systableColumnsOf k).length) : i < data.length := by
  rw [h.length]
  exact hi

namespace RowKind

include hcmp

theorem says_oid {i : Nat} (hi : i < (systableColumnsOf kind.systabid).length) {get : α → Nat}
    (hget : ∀ data, get (kind.ofData data) = (fieldOf data i).getUInt 32) (oid : Nat) :
    kind.Says builtin [⟨i, funcOidEq, .ofInt oid⟩] fun a => get a = oidOf oid := by
  refine ⟨?_, fun data hdata => ?_⟩
  · intro p hp
    cases List.mem_singleton.mp hp
    exact ⟨⟨⟨_, hcmp.oid⟩, rfl⟩, hi⟩
  · rw [List.all_cons, List.all_nil, Bool.and_true,
      holds_oid hcmp (rowFields_field hdata hi) hdata.notNull, ← hget]

theorem says_name {i : Nat} (hi : i < (systableColumnsOf kind.systabid).length)
    {get : α → ByteString}
    (hget : ∀ data, get (kind.ofData data) = (fieldOf data i).getVarlenBytes) (name : ByteString) :
    kind.Says builtin [⟨i, funcVarcharStringEqCi, .fromVarlenBytes name⟩]
      fun a => stringEqualCi (get a) (nameOf name) := by
  refine ⟨?_, fun data hdata => ?_⟩
  · intro p hp
    cases List.mem_singleton.mp hp
    exact ⟨⟨⟨_, hcmp.varchar⟩, rfl⟩, hi⟩
  · rw [List.all_cons, List.all_nil, Bool.and_true,
      holds_varchar hcmp (rowFields_field hdata hi) hdata.notNull, ← hget]

end RowKind

include hcmp in
theorem says_functionArgs (funcid : Nat) (funcargid : Int) :
    RowKind.functionArgs.Says builtin
      [⟨SysTableFunctionArgs.funcidColid, funcOidEq, .ofInt funcid⟩,
        ⟨SysTableFunctionArgs.funcargidColid, funcInt2Eq, .ofInt funcargid⟩]
      fun r => r.funcid = oidOf funcid ∧ r.funcargid = toFieldOffset funcargid := by
  have h0 : SysTableFunctionArgs.funcidColid < (systableColumnsOf tabFunctionArgs).length := by
    decide
  have h1 : SysTableFunctionArgs.funcargidColid < (systableColumnsOf tabFunctionArgs).length := by
    decide
  refine ⟨?_, fun data hdata => ?_⟩
  · intro p hp
    simp only [List.mem_cons, List.not_mem_nil, or_false] at hp
    rcases hp with rfl | rfl
    · exact ⟨⟨⟨_, hcmp.oid⟩, rfl⟩, h0⟩
    · exact ⟨⟨⟨_, hcmp.int2⟩, rfl⟩, h1⟩
  · rw [List.all_cons, List.all_cons, List.all_nil, Bool.and_true,
      holds_oid hcmp (rowFields_field hdata h0) hdata.notNull,
      holds_int2 hcmp (rowFields_field hdata h1) hdata.notNull, ← Bool.decide_and]
    rfl

include hcmp in
theorem says_operator (optype oparg0typid oparg1typid : Nat) :
    RowKind.operator.Says builtin
      [⟨SysTableOperator.optypeColid, funcUint1Eq, .ofInt optype⟩,
        ⟨SysTableOperator.oparg0typidColid, funcOidEq, .ofInt oparg0typid⟩,
        ⟨SysTableOperator.oparg1typidColid, funcOidEq, .ofInt oparg1typid⟩]
      fun r => r.optype = optype % 2 ^ 8 ∧ r.oparg0typid = oidOf oparg0typid ∧
        r.oparg1typid = oidOf oparg1typid := by
  have h0 : SysTableOperator.optypeColid < (systableColumnsOf tabOperator).length := by decide
  have h1 : SysTableOperator.oparg0typidColid < (systableColumnsOf tabOperator).length := by decide
  have h2 : SysTableOperator.oparg1typidColid < (systableColumnsOf tabOperator).length := by decide
  refine ⟨?_, fun data hdata => ?_⟩
  · intro p hp
    simp only [List.mem_cons, List.not_mem_nil, or_false] at hp
    rcases hp with rfl | rfl | rfl
    · exact ⟨⟨⟨_, hcmp.uint1⟩, rfl⟩, h0⟩
    · exact ⟨⟨⟨_, hcmp.oid⟩, rfl⟩, h1⟩
    · exact ⟨⟨⟨_, hcmp.oid⟩, rfl⟩, h2⟩
  · rw [List.all_cons, List.all_cons, List.all_cons, List.all_nil, Bool.and_true,
      holds_uint1 hcmp (rowFields_field hdata h0) hdata.notNull,
      holds_oid hcmp (rowFields_field hdata h1) hdata.notNull,
      holds_oid hcmp (rowFields_field hdata h2) hdata.notNull, ← Bool.decide_and, ← Bool.decide_and]
    rfl

end

namespace CatCache

section

variable {builtin : BuiltinTable} (hcmp : builtin.Compares) {ready : Bool} {files : VolatileFiles}
  {c : Content} (hs : Stores files c) {fd : Nat → Eff Failure CatCache (Option TableDesc)}

include hcmp hs

theorem findTable_computes (hfd : Answers (Coherent builtin ready files c) fd c tabTable)
    (tabid : Nat) :
    Computes (Coherent builtin ready files c) (findTable builtin fd tabid)
      (.ok (c.findTable tabid)) :=
  findEntry_computes .table hs hfd (RowKind.says_oid hcmp .table (by decide) (fun _ => rfl) tabid)

theorem findTableByName_computes (hfd : Answers (Coherent builtin ready files c) fd c tabTable)
    (tabname : ByteString) :
    Computes (Coherent builtin ready files c) (findTableByName builtin fd tabname)
      (.ok (c.findTableByName tabname)) :=
  findMember_computes .table hs hfd
    (RowKind.says_name hcmp .table (by decide) (fun _ => rfl) tabname) _

theorem findType_computes (hfd : Answers (Coherent builtin ready files c) fd c tabType)
    (typid : Nat) :
    Computes (Coherent builtin ready files c) (findType builtin fd typid)
      (.ok (c.findType typid)) :=
  findEntry_computes .type hs hfd (RowKind.says_oid hcmp .type (by decide) (fun _ => rfl) typid)

theorem findFunction_computes (hfd : Answers (Coherent builtin ready files c) fd c tabFunction)
    (funcid : Nat) :
    Computes (Coherent builtin ready files c) (findFunction builtin fd funcid)
      (.ok (c.findFunction funcid)) :=
  findEntry_computes .function hs hfd
    (RowKind.says_oid hcmp .function (by decide) (fun _ => rfl) funcid)

theorem findFunctionByName_computes
    (hfd : Answers (Coherent builtin ready files c) fd c tabFunction) (funcname : ByteString) :
    Computes (Coherent builtin ready files c) (findFunctionByName builtin fd funcname)
      (.ok (c.findFunctionByName funcname)) :=
  findMember_computes .function hs hfd
    (RowKind.says_name hcmp .function (by decide) (fun _ => rfl) funcname) _

theorem findFunctionArgs_computes
    (hfd : Answers (Coherent builtin ready files c) fd c tabFunctionArgs) (funcid : Nat)
    (funcargid : Int) :
    Computes (Coherent builtin ready files c) (findFunctionArgs builtin fd funcid funcargid)
      (.ok (c.findFunctionArgs funcid funcargid)) :=
  findEntry_computes .functionArgs hs hfd (says_functionArgs hcmp funcid funcargid)

theorem findOperator_computes (hfd : Answers (Coherent builtin ready files c) fd c tabOperator)
    (optype oparg0typid oparg1typid : Nat) :
    Computes (Coherent builtin ready files c) (findOperator builtin fd optype oparg0typid oparg1typid)
      (checkOperands optype oparg0typid oparg1typid >>= fun _ =>
        .ok (c.findOperator optype oparg0typid oparg1typid)) :=
  .bind (.lift _) fun _ _ =>
    findMember_computes .operator hs hfd (says_operator hcmp optype oparg0typid oparg1typid) _

theorem findIndex_computes (hfd : Answers (Coherent builtin ready files c) fd c tabIndex)
    (idxid : Nat) :
    Computes (Coherent builtin ready files c) (findIndex builtin fd idxid)
      (.ok (c.findIndex idxid)) :=
  findEntry_computes .index hs hfd (RowKind.says_oid hcmp .index (by decide) (fun _ => rfl) idxid)

theorem findIndexByName_computes (hfd : Answers (Coherent builtin ready files c) fd c tabIndex)
    (idxname : ByteString) :
    Computes (Coherent builtin ready files c) (findIndexByName builtin fd idxname)
      (.ok (c.findIndexByName idxname)) :=
  findMember_computes .index hs hfd
    (RowKind.says_name hcmp .index (by decide) (fun _ => rfl) idxname) _

theorem findRowsOf_computes {α : Type} (kind : RowKind α)
    (hfd : Answers (Coherent builtin ready files c) fd c kind.systabid) {i : Nat}
    (hi : i < (systableColumnsOf kind.systabid).length) (get : α → Nat)
    (hget : ∀ data, get (kind.ofData data) = (fieldOf data i).getUInt 32) (oid : Nat)
    (noCache : Bool) (n : Nat) :
    Computes (Coherent builtin ready files c)
      (searchForCatalogEntry builtin fd { expectUnique := false, noCache, expectN := n }
        kind.systabid [⟨i, funcOidEq, .ofInt oid⟩])
      (if maxVectorSize < n then .error (.exception "std::length_error")
        else .ok ((takeExpected n ((kind.list c).filter fun a => get a = oidOf oid)).map
          kind.wrap)) :=
  findRows_computes kind hs hfd (RowKind.says_oid hcmp kind hi hget oid) noCache n

theorem findAllIndexesOfTable_computes
    (hfd : Answers (Coherent builtin ready files c) fd c tabIndex) (idxtabid : Nat) :
    Computes (Coherent builtin ready files c) (findAllIndexesOfTable builtin fd idxtabid)
      (.ok (c.findAllIndexesOfTable idxtabid)) := by
  have hrows := findRowsOf_computes hcmp hs .index hfd (i := SysTableIndex.idxtabidColid)
    (by decide) (·.idxtabid) (fun _ => rfl) idxtabid false 0
  rw [if_neg (by decide), takeExpected, if_pos rfl] at hrows
  refine .bind_ok hrows (.bind_ok (.congr (.lift _) ?_) (.ret _))
  exact RowKind.index.mapM_cast _

omit hcmp hs in
theorem createOf_table {types : Nat → Option SysTableType} {table : SysTableTable}
    {columns : List SysTableColumn} {desc : TableDesc}
    (h : TableDesc.createOf types builtin table columns = .ok (some desc)) : desc.table = table :=
  (TableDesc.create_frame (Prod.ext h rfl)).1

omit hcmp hs in
theorem findTableDesc_oidOf (tabid : Nat) :
    c.findTableDesc builtin (oidOf tabid) = c.findTableDesc builtin tabid := by
  have htable : c.findTable (oidOf tabid) = c.findTable tabid := by
    rw [Content.findTable, Content.findTable, oidOf, Nat.mod_mod]
  have hcolumns : c.columnsOf (oidOf tabid) = c.columnsOf tabid := by
    rw [Content.columnsOf, Content.columnsOf, oidOf, Nat.mod_mod]
  unfold Content.findTableDesc Content.describeTable
  rw [htable, hcolumns]

/-- Reading the rows that a descriptor is made of: there have to be as many as are expected. -/
theorem expectedRows_computes {α β : Type} (kind : RowKind α)
    (hfd : Answers (Coherent builtin ready files c) fd c kind.systabid) {i : Nat}
    (hi : i < (systableColumnsOf kind.systabid).length) (get : α → Nat)
    (hget : ∀ data, get (kind.ofData data) = (fieldOf data i).getUInt 32) (oid n : Nat)
    (wrong : Nat → Failure) {k : List α → Eff Failure CatCache β} {x : List α → Except Failure β}
    (hk : ∀ cols, cols = takeExpected n ((kind.list c).filter fun a => get a = oidOf oid) →
      n ≤ maxVectorSize → cols.length = n →
        Computes (Coherent builtin ready files c) (k cols) (x cols)) :
    Computes (Coherent builtin ready files c)
      (searchForCatalogEntry builtin fd { expectUnique := false, noCache := true, expectN := n }
          kind.systabid [⟨i, funcOidEq, .ofInt oid⟩] >>= fun rows =>
        if rows.length ≠ n then Eff.fail (wrong rows.length)
        else Eff.ofExcept (rows.mapM kind.cast) >>= k)
      (if maxVectorSize < n then .error (.exception "std::length_error")
        else if (takeExpected n ((kind.list c).filter fun a => get a = oidOf oid)).length ≠ n then
          .error (wrong (takeExpected n ((kind.list c).filter fun a => get a = oidOf oid)).length)
        else x (takeExpected n ((kind.list c).filter fun a => get a = oidOf oid))) := by
  have hrows := findRowsOf_computes hcmp hs kind hfd hi get hget oid true n
  by_cases hmax : maxVectorSize < n
  · rw [if_pos hmax] at hrows ⊢
    exact .bind_error hrows
  rw [if_neg hmax] at hrows ⊢
  refine .bind_ok hrows ?_
  rw [List.length_map]
  by_cases hlen : (takeExpected n ((kind.list c).filter fun a => get a = oidOf oid)).length ≠ n
  · rw [if_pos hlen, if_pos hlen]
    exact .failure _
  · rw [if_neg hlen, if_neg hlen]
    exact .bind_ok (.congr (.lift _) (kind.mapM_cast _))
      (hk _ rfl (Nat.le_of_not_lt hmax) (not_not.mp hlen))

/-- Making the descriptor of the rows, and keeping it. -/
theorem buildTableDesc_computes (htype : Answers (Coherent builtin true files c) fd c tabType)
    {tabid : Nat} {table : SysTableTable} (ht : c.findTable tabid = some table)
    {cols : List SysTableColumn}
    (hdesc : ∀ desc, TableDesc.createOf c.findType builtin table (sortColumns false cols) =
      .ok (some desc) → c.findTableDesc builtin tabid = .ok (some desc)) :
    Computes (Coherent builtin true files c)
      (Eff.getState >>= fun st =>
        TableDesc.create (findType builtin fd) builtin table (sortColumns st.useIndex cols) >>= fun
        | none => logFatal ("unable to create table desc for table " ++ messageText table.tabname)
        | some tabdesc => do
            Eff.modifyState (cacheTableDesc tabdesc)
            return some tabdesc)
      (TableDesc.createOf c.findType builtin table (sortColumns false cols) >>= fun
        | none => .error (.tdbError .kFatal
            ("unable to create table desc for table " ++ messageText table.tabname))
        | some desc => .ok (some desc)) := by
  refine .state fun st hst => ?_
  rw [hst.useIndex]
  have hcreate : Computes _ (TableDesc.create _ builtin table _) _ := TableDesc.create_computes
    (findType_computes hcmp hs htype) table (sortColumns false cols)
  cases hcreated : TableDesc.createOf c.findType builtin table (sortColumns false cols) with
  | error e =>
      rw [hcreated] at hcreate
      exact Computes.bind_error hcreate st hst
  | ok desc? =>
      rw [hcreated] at hcreate
      refine Computes.bind_ok hcreate ?_ st hst
      cases desc? with
      | none => exact .failure _
      | some desc =>
          have htabid : desc.table.tabid = oidOf tabid := by
            rw [createOf_table hcreated]
            simpa using List.find?_some ht
          refine .bind_ok (.modify fun st hst => hst.cacheTableDesc ?_) (.ret _)
          rw [htabid, findTableDesc_oidOf, hdesc desc hcreated]

theorem findTableDescStep_computes
    (htable : Answers (Coherent builtin true files c) fd c tabTable)
    (hcolumn : Answers (Coherent builtin true files c) fd c tabColumn)
    (htype : Answers (Coherent builtin true files c) fd c tabType) (tabid : Nat) :
    Computes (Coherent builtin true files c) (findTableDescStep builtin fd tabid)
      (c.findTableDesc builtin tabid) := by
  unfold findTableDescStep
  refine .state fun st hst => ?_
  cases hcached : st.tableDesc tabid with
  | some desc =>
      dsimp only
      rw [hst.cachedTables tabid desc hcached]
      exact ⟨rfl, hst⟩
  | none =>
      have hne : tabid ≠ tabColumn := by
        rintro rfl
        have := hst.minCached tabColumn (by decide)
        rw [hcached] at this
        cases this
      have hassert : assert (decide (tabid ≠ tabColumn))
          "Column systable descriptor should have been built during catalog cache initialization" =
            (pure () : Eff Failure CatCache Unit) := by
        rw [assert, decide_eq_true hne, if_pos rfl]
      dsimp only
      rw [hassert, hst.initialized]
      refine Computes.bind_ok (.ret ()) (.bind_ok (.ret ()) (.bind_ok
        (findTable_computes hcmp hs htable tabid) ?_)) st hst
      cases ht : c.findTable tabid with
      | none =>
          rw [Content.findTableDesc, ht]
          exact .ret _
      | some table =>
          refine .congr (expectedRows_computes hcmp hs .column hcolumn (by decide) (·.coltabid)
            (fun _ => rfl) tabid _ (fun _ => .tdbError .kFatal "") fun cols hcols hmax hlen =>
              buildTableDesc_computes hcmp hs htype ht fun desc hdesc => ?_) ?_
          · subst hcols
            exact Content.findTableDesc_eq_some_iff.mpr ⟨table, ht, hmax, hlen, hdesc⟩
          · have hcols : ((RowKind.column.list c).filter fun a => a.coltabid = oidOf tabid) =
                c.columnsOf tabid := rfl
            rw [Content.findTableDesc, ht, hcols]
            dsimp only
            unfold Content.describeTable
            dsimp only
            split
            · rfl
            split
            · rfl
            · rcases TableDesc.createOf c.findType builtin table (sortColumns false
                (takeExpected (toSize table.tabncols) (c.columnsOf tabid))) with e | _ | desc
              · rfl
              · rfl
              · rfl

omit hcmp in
theorem answers_cached (n : Nat) {k : Nat} (hmin : k ∈ minTables) :
    Answers (Coherent builtin ready files c) (findTableDesc builtin (n + 1)) c k := by
  have hk : k ∈ systabids := by
    have hall : ∀ k ∈ minTables, k ∈ systabids := by decide
    exact hall k hmin
  obtain ⟨table, ht, -⟩ := hs.describes.tables k hk
  refine ⟨table, ht, fun st hst => ?_⟩
  obtain ⟨desc, hdesc⟩ := Option.isSome_iff_exists.mp (hst.minCached k hmin)
  have hcontent := hst.cachedTables k desc hdesc
  rw [hs.describes.findTableDesc builtin hk ht] at hcontent
  cases hcontent
  rw [findTableDesc, findTableDescStep_cached hdesc]
  exact ⟨rfl, hst⟩

/-- `FindTableDesc` returns the descriptor that can be made of the rows. -/
theorem findTableDesc_computes (n tabid : Nat) :
    Computes (Coherent builtin true files c) (findTableDesc builtin (n + 2) tabid)
      (c.findTableDesc builtin tabid) :=
  findTableDescStep_computes hcmp hs (answers_cached hs n (by decide))
    (answers_cached hs n (by decide)) (answers_cached hs n (by decide)) tabid

theorem answers_findTableDesc (n : Nat) {k : Nat} (hk : k ∈ systabids) :
    Answers (Coherent builtin true files c) (findTableDesc builtin (n + 2)) c k := by
  obtain ⟨table, ht, -⟩ := hs.describes.tables k hk
  exact ⟨table, ht, .congr (findTableDesc_computes hcmp hs n k)
    (hs.describes.findTableDesc builtin hk ht)⟩

theorem buildIndexDesc_computes (htype : Answers (Coherent builtin true files c) fd c tabType)
    {idxid : Nat} {index : SysTableIndex} {cols : List SysTableIndexColumn}
    (hdesc : ∀ desc, IndexDesc.createOf c.findType builtin index (sortIndexColumns false cols) =
      .ok desc → c.findIndexDesc builtin idxid = .ok (some desc)) :
    Computes (Coherent builtin true files c)
      (Eff.getState >>= fun st =>
        IndexDesc.create (findType builtin fd) builtin index (sortIndexColumns st.useIndex cols) >>=
          fun indexdesc => do
            Eff.modifyState (cacheIndexDesc idxid indexdesc)
            return some indexdesc)
      (some <$> IndexDesc.createOf c.findType builtin index (sortIndexColumns false cols)) := by
  refine .state fun st hst => ?_
  rw [hst.useIndex]
  have hcreate : Computes _ (IndexDesc.create _ builtin index _) _ := IndexDesc.create_computes
    (findType_computes hcmp hs htype) index (sortIndexColumns false cols)
  cases hcreated : IndexDesc.createOf c.findType builtin index (sortIndexColumns false cols) with
  | error e =>
      rw [hcreated] at hcreate
      exact Computes.bind_error hcreate st hst
  | ok desc =>
      rw [hcreated] at hcreate
      refine Computes.bind_ok hcreate ?_ st hst
      exact .bind_ok (.modify fun st hst => hst.cacheIndexDesc (hdesc desc hcreated)) (.ret _)

/-- `FindIndexDesc` returns the descriptor that can be made of the rows. -/
theorem findIndexDesc_computes
    (hfd : ∀ k ∈ systabids, Answers (Coherent builtin true files c) fd c k) (idxid : Nat) :
    Computes (Coherent builtin true files c) (findIndexDesc builtin fd idxid)
      (c.findIndexDesc builtin idxid) := by
  unfold findIndexDesc
  refine .state fun st hst => ?_
  cases hcached : st.indexDesc idxid with
  | some desc =>
      dsimp only
      rw [hst.cachedIndexes idxid desc hcached]
      exact ⟨rfl, hst⟩
  | none =>
      dsimp only
      refine Computes.bind_ok (findIndex_computes hcmp hs (hfd tabIndex (by decide)) idxid) ?_ st hst
      cases hx : c.findIndex idxid with
      | none =>
          rw [Content.findIndexDesc, hx]
          exact .ret _
      | some index =>
          refine .congr (expectedRows_computes hcmp hs .indexColumn
            (hfd tabIndexColumn (by decide)) (by decide) (·.idxcolidxid) (fun _ => rfl) idxid _
            (fun n => .tdbError .kFatal
              (s!"the number of entries in IndexColumn table does not match idxncols for " ++
                s!"index {idxid}, got {n}, expecting {toSize index.idxncols}"))
            fun cols hcols hmax hlen =>
              buildIndexDesc_computes hcmp hs (hfd tabType (by decide)) fun desc hdesc => ?_) ?_
          · subst hcols
            exact Content.findIndexDesc_eq_some_iff.mpr ⟨index, hx, hmax, hlen, hdesc⟩
          · have hcols : ((RowKind.indexColumn.list c).filter fun a =>
                a.idxcolidxid = oidOf idxid) = c.indexColumnsOf idxid := rfl
            rw [Content.findIndexDesc, hx, hcols]
            dsimp only
            unfold Content.describeIndex
            dsimp only
            split
            · rfl
            split
            · rfl
            · rfl

end

end CatCache

end Taco
