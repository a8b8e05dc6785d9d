import TacoDB.Catalog.Returns

/-!
# The recursion of the descriptor lookup

`FindTableDesc` searches `Table` and `Column` and computes a layout, which searches `Type`,
and every search starts with `FindTableDesc` of the systable it goes through. With the
descriptors of these three systables in the cache the recursion is two calls deep: the
inner calls are answered from the cache. Two bounds on the depth therefore give the same
result, in every state with the three descriptors, and no call takes a descriptor out of
the cache.
-/

namespace Taco

open Eff Initoids Run

namespace CatCache

/-- The systables whose descriptors `LoadMinCache` puts into the cache. -/
def minTables : List Nat := [tabTable, tabType, tabColumn]

def MinCached (st : CatCache) : Prop := ∀ tabid ∈ minTables, (st.tableDesc tabid).isSome

def cachedTableDesc (tabid : Nat) : Eff Failure CatCache (Option TableDesc) := do
  let st ← Eff.getState
  match st.tableDesc tabid with
  | some desc => return some desc
  | none => Eff.fail .diverges

/-- Two computations do the same while the three descriptors are in the cache, which they
do not take out, and they return. -/
abbrev Same {α : Type} (x y : Eff Failure CatCache α) : Prop :=
  Agree MinCached (· = .diverges) x y

theorem isSome_emplace {κ α : Type} [DecidableEq κ] (m : κ → Option α) (k k' : κ) (a : α)
    (h : (m k').isSome) : (emplace m k a k').isSome := by
  unfold emplace
  split
  · exact h
  · rw [Function.update_apply]
    split
    · rfl
    · exact h

theorem onFiles_same {α : Type} {x : Eff Failure VolatileFiles α} (hx : ReturnsAlways x) :
    Same (onFiles x) (onFiles x) :=
  fun st h => ⟨rfl, h, (hx st.files trivial).2.2⟩

/-- What `NextCatEntry` does to an iterator that finds another record. -/
theorem nextValid_bounds {f : InmemFile} {idx n idx' : Nat}
    (h : nextValid f idx n = .ok (some idx')) : idx ≤ idx' ∧ idx' < idx + n := by
  induction n generalizing idx with
  | zero => cases h
  | succ n ih =>
      unfold nextValid at h
      obtain ⟨valid, -, hrest⟩ := except_bind_eq_ok_iff.mp h
      split at hrest
      · cases hrest
        omega
      · have := ih hrest
        omega

theorem nextCatEntry_advances {iter iter' : CatFileIterator} {st st' : VolatileFiles}
    (hend : iter.endidx < 2 ^ 16) (h : nextCatEntry iter st = (.ok (true, iter'), st')) :
    iter'.endidx = iter.endidx ∧ iter.nextidx < iter'.nextidx ∧ iter'.nextidx ≤ iter.endidx := by
  unfold nextCatEntry at h
  obtain ⟨f, t, -, h⟩ := bind_eq_ok_iff.mp h
  obtain ⟨_, t, -, h⟩ := bind_eq_ok_iff.mp h
  obtain ⟨idx?, t, hnext, h⟩ := bind_eq_ok_iff.mp h
  cases idx? with
  | none =>
      have hfalse := congrArg Prod.fst (ok_inj h).1
      cases hfalse
  | some idx =>
      have hbounds := nextValid_bounds (congrArg Prod.fst hnext)
      have hiter := congrArg Prod.snd (ok_inj h).1
      simp only at hiter
      subst hiter
      have hmod : (idx + 1) % 2 ^ 16 = idx + 1 := Nat.mod_eq_of_lt (by omega)
      exact ⟨rfl, by simp only [hmod]; omega, by simp only [hmod]; omega⟩

section

variable {builtin : BuiltinTable} (hbuiltin : builtin.Returns)

theorem getOrCreateCachedEntry_same (noCache : Bool) (systabid : Nat) (recid : RecordId)
    (schema : Schema) (buf : ByteString) :
    Same (getOrCreateCachedEntry noCache systabid recid schema buf)
      (getOrCreateCachedEntry noCache systabid recid schema buf) := by
  refine .bind .state fun st => ?_
  split
  · exact .ret _
  · refine .bind (.lift (Schema.dissemblePayload_returns _ _)) fun _ => ?_
    refine .bind (.lift (SysTableStruct.create_returns _ _)) fun _ => .ite (.ret _) ?_
    exact .bind (.modify fun _ h => h) fun _ => .ret _

include hbuiltin

/-- The search loop is over before its bound is: each iteration moves the iterator closer to
the end of the file. -/
theorem searchLoop_same (mode : SearchMode) (systabid : Nat) (schema : Schema)
    (preds : List Predicate) {n : Nat} {iter : CatFileIterator} (hend : iter.endidx < 2 ^ 16)
    (hn : iter.endidx - iter.nextidx < n) (ret : List SysTableStruct) :
    Same (searchLoop builtin mode systabid schema preds n iter ret)
      (searchLoop builtin mode systabid schema preds n iter ret) := by
  induction n generalizing iter ret with
  | zero => omega
  | succ n ih =>
      unfold searchLoop
      refine .bind_of (Q := fun r => r.1 = true → r.2.endidx = iter.endidx ∧
        iter.nextidx < r.2.nextidx ∧ r.2.nextidx ≤ iter.endidx)
        (onFiles_same (nextCatEntry_returns iter)) ?_ ?_
      · rintro st ⟨more, iter'⟩ - hret hmore
        simp only at hmore
        subst hmore
        exact nextCatEntry_advances hend (Prod.ext hret rfl)
      · rintro ⟨more, iter'⟩ hiter
        cases more with
        | false => exact .ret _
        | true =>
            obtain ⟨hend', hlt, hle⟩ := hiter rfl
            simp only at hend' hlt hle
            have hrec : ∀ ret, Same (searchLoop builtin mode systabid schema preds n iter' ret)
                (searchLoop builtin mode systabid schema preds n iter' ret) :=
              fun ret => ih (by omega) (by omega) ret
            refine .bind (onFiles_same (getCurrentCatEntry_returns _)) fun recbuf => ?_
            refine .bind (.lift (checkIfEqual_returns hbuiltin _ _ _)) fun equal => ?_
            refine .ite ?_ (hrec _)
            refine .bind (getOrCreateCachedEntry_same _ _ _ _ _) fun row => ?_
            exact .ite (.ret _) (hrec _)

section

variable {fd fd' : Nat → Eff Failure CatCache (Option TableDesc)}

theorem searchForCatalogEntry_same {systabid : Nat} (hfd : Same (fd systabid) (fd' systabid))
    (mode : SearchMode) (preds : List Predicate) :
    Same (searchForCatalogEntry builtin fd mode systabid preds)
      (searchForCatalogEntry builtin fd' mode systabid preds) := by
  refine .bind (assert_returns _ _) fun _ => .ite (.failure nofun) ?_
  refine .bind hfd fun tabdesc? => ?_
  cases tabdesc? with
  | none => exact .failure nofun
  | some tabdesc =>
      refine .bind .state fun _ => .ite (logFatal_returns _) ?_
      refine .bind (onFiles_same (openCatalogFile_returns _)) fun fh => ?_
      refine .bind_of (Q := fun iter => iter.endidx < 2 ^ 16)
        (onFiles_same (iterateCatEntry_returns _)) ?_ fun iter hend => ?_
      · intro st iter _ hret
        have hiterate : iterateCatEntry fh st.files = (.ok iter, (iterateCatEntry fh st.files).2) :=
          Prod.ext hret rfl
        obtain ⟨f, t, -, h⟩ := bind_eq_ok_iff.mp hiterate
        have hiter := (ok_inj h).1
        subst hiter
        exact Nat.mod_lt _ (by decide)
      · exact searchLoop_same hbuiltin mode systabid _ preds hend (Nat.lt_succ_self _) []

theorem searchForUniqueEntry_same {systabid : Nat} (hfd : Same (fd systabid) (fd' systabid))
    (preds : List Predicate) :
    Same (searchForUniqueEntry builtin fd systabid preds)
      (searchForUniqueEntry builtin fd' systabid preds) :=
  .bind (searchForCatalogEntry_same hbuiltin hfd _ preds) fun _ => .ret _

omit hbuiltin in
theorem castEntry_same {α : Type} {cast : SysTableStruct → Except Failure α}
    (hcast : ∀ row, Returns (cast row)) (row? : Option SysTableStruct) :
    Same (castEntry cast row?) (castEntry cast row?) := by
  cases row? with
  | none => exact .ret _
  | some row => exact .bind (.lift (hcast row)) fun _ => .ret _

theorem findEntry_same {α : Type} {systabid : Nat} (hfd : Same (fd systabid) (fd' systabid))
    {cast : SysTableStruct → Except Failure α} (hcast : ∀ row, Returns (cast row))
    (preds : List Predicate) :
    Same (searchForUniqueEntry builtin fd systabid preds >>= castEntry cast)
      (searchForUniqueEntry builtin fd' systabid preds >>= castEntry cast) :=
  .bind (searchForUniqueEntry_same hbuiltin hfd preds) (castEntry_same hcast)

theorem findMember_same {α : Type} {systabid : Nat} (hfd : Same (fd systabid) (fd' systabid))
    {cast : SysTableStruct → Except Failure α} (hcast : ∀ row, Returns (cast row))
    (preds : List Predicate) (get : Option α → Nat) :
    Same
      (searchForUniqueEntry builtin fd systabid preds >>= fun row? =>
        castEntry cast row? >>= fun row? => pure (get row?))
      (searchForUniqueEntry builtin fd' systabid preds >>= fun row? =>
        castEntry cast row? >>= fun row? => pure (get row?)) :=
  .bind (searchForUniqueEntry_same hbuiltin hfd preds) fun _ =>
    .bind (castEntry_same hcast _) fun _ => .ret _

theorem findType_same (hfd : Same (fd tabType) (fd' tabType)) (typid : Nat) :
    Same (findType builtin fd typid) (findType builtin fd' typid) :=
  findEntry_same hbuiltin hfd SysTableStruct.asType_returns _

theorem tableDescCreate_same (hfd : Same (fd tabType) (fd' tabType)) (table : SysTableTable)
    (columns : List SysTableColumn) :
    Same (TableDesc.create (findType builtin fd) builtin table columns)
      (TableDesc.create (findType builtin fd') builtin table columns) := by
  refine .ite (.ret _) (.bind (.lift (ColumnArrays.fill_returns _ _ _)) fun a? => ?_)
  cases a? with
  | none => exact .ret _
  | some a =>
      dsimp only
      cases Schema.create a.typid a.typparam a.isnullable a.fieldNames with
      | none => exact .failure nofun
      | some schema =>
          exact .bind (Schema.computeLayoutImpl_agree hbuiltin (findType_same hbuiltin hfd) _)
            fun _ => .ret _

theorem indexDescCreate_same (hfd : Same (fd tabType) (fd' tabType)) (index : SysTableIndex)
    (columns : List SysTableIndexColumn) :
    Same (IndexDesc.create (findType builtin fd) builtin index columns)
      (IndexDesc.create (findType builtin fd') builtin index columns) := by
  unfold IndexDesc.create
  cases keySchemaOf columns with
  | none => exact .failure nofun
  | some keySchema =>
      exact .bind (Schema.computeLayoutImpl_agree hbuiltin (findType_same hbuiltin hfd) _)
        fun _ => .ret _

/-- The body of `FindTableDesc` asks only for the descriptors of the three systables. -/
theorem findTableDescStep_same (hfd : ∀ k ∈ minTables, Same (fd k) (fd' k)) (tabid : Nat) :
    Same (findTableDescStep builtin fd tabid) (findTableDescStep builtin fd' tabid) := by
  have htable := hfd tabTable (by decide)
  have htype := hfd tabType (by decide)
  have hcolumn := hfd tabColumn (by decide)
  refine .bind .state fun st => ?_
  cases st.tableDesc tabid with
  | some desc => exact .ret _
  | none =>
      refine .bind (assert_returns _ _) fun _ => .bind (assert_returns _ _) fun _ => ?_
      refine .bind (findEntry_same hbuiltin htable SysTableStruct.asTable_returns _)
        fun table? => ?_
      cases table? with
      | none => exact .ret _
      | some table =>
          refine .bind (searchForCatalogEntry_same hbuiltin hcolumn _ _) fun rows => ?_
          refine .ite (logFatal_returns _) ?_
          refine .bind (.lift (.mapM SysTableStruct.asColumn_returns _)) fun cols => ?_
          refine .bind .state fun st => .bind (tableDescCreate_same hbuiltin htype _ _)
            fun tabdesc? => ?_
          cases tabdesc? with
          | none => exact logFatal_returns _
          | some tabdesc =>
              refine .bind (.modify fun st h k hk => ?_) fun _ => .ret _
              exact isSome_emplace _ _ _ _ (h k hk)

end

omit hbuiltin in
theorem findTableDescStep_cached {fd : Nat → Eff Failure CatCache (Option TableDesc)}
    {st : CatCache} {tabid : Nat} {desc : TableDesc} (h : st.tableDesc tabid = some desc) :
    findTableDescStep builtin fd tabid st = (.ok (some desc), st) := by
  rw [findTableDescStep, bind_of_ok (getState_apply st), h]
  rfl

omit hbuiltin in
theorem cachedTableDesc_cached {st : CatCache} {tabid : Nat} {desc : TableDesc}
    (h : st.tableDesc tabid = some desc) : cachedTableDesc tabid st = (.ok (some desc), st) := by
  rw [cachedTableDesc, bind_of_ok (getState_apply st), h]
  rfl

omit hbuiltin in
theorem findTableDesc_same_cached (n : Nat) {tabid : Nat} (hmin : tabid ∈ minTables) :
    Same (findTableDesc builtin (n + 1) tabid) (cachedTableDesc tabid) := by
  intro st h
  obtain ⟨desc, hdesc⟩ := Option.isSome_iff_exists.mp (h tabid hmin)
  rw [findTableDesc, findTableDescStep_cached hdesc, cachedTableDesc_cached hdesc]
  exact ⟨rfl, h, .ok _⟩

/-- Whatever the bound on the depth, from two calls on, the calls inside of `FindTableDesc`
are answered from the cache. -/
theorem findTableDesc_same (n tabid : Nat) :
    Same (findTableDesc builtin (n + 2) tabid)
      (findTableDescStep builtin cachedTableDesc tabid) :=
  findTableDescStep_same hbuiltin (fun _ hk => findTableDesc_same_cached n hk) tabid

section

variable {fd fd' : Nat → Eff Failure CatCache (Option TableDesc)}
  (hfd : ∀ tabid, Same (fd tabid) (fd' tabid))

omit hbuiltin in
theorem allocateOid_same : Same allocateOid allocateOid := by
  refine .bind (onFiles_same (openCatalogFile_returns _)) fun _ => .bind .state fun st => ?_
  cases st.files.dbmetaPage with
  | none => exact .failure nofun
  | some page => exact .ite (.ret _) (.bind (.modify fun _ h => h) fun _ => .ret _)

omit hbuiltin in
theorem insertRows_same (tabdesc : TableDesc) (fh : Nat) (data : List (List Datum)) :
    Same (insertRows tabdesc fh data) (insertRows tabdesc fh data) := by
  induction data with
  | nil => exact .ret _
  | cons row rest ih =>
      refine .bind (.lift (rowPayload_returns _ _)) fun _ => ?_
      exact .bind (onFiles_same (appendRecord_returns _ _)) fun _ => ih

include hfd

omit hbuiltin in
theorem insertCatalogEntries_same (systabid : Nat) (data : List (List Datum)) :
    Same (insertCatalogEntries fd systabid data) (insertCatalogEntries fd' systabid data) := by
  refine .bind (hfd systabid) fun tabdesc? => ?_
  cases tabdesc? with
  | none => exact .failure nofun
  | some tabdesc =>
      exact .bind (onFiles_same (openCatalogFile_returns _)) fun _ => insertRows_same _ _ _

theorem findOperator_same (optype oparg0typid oparg1typid : Nat) :
    Same (findOperator builtin fd optype oparg0typid oparg1typid)
      (findOperator builtin fd' optype oparg0typid oparg1typid) := by
  refine .bind (.lift ?_) fun _ =>
    findMember_same hbuiltin (hfd tabOperator) SysTableStruct.asOperator_returns _ _
  exact .ite (.ite (.error nofun) (.ok _)) (.ite (.error nofun) (.ite (.error nofun) (.ok _)))

theorem findIndexDesc_same (idxid : Nat) :
    Same (findIndexDesc builtin fd idxid) (findIndexDesc builtin fd' idxid) := by
  refine .bind .state fun st => ?_
  cases st.indexDesc idxid with
  | some desc => exact .ret _
  | none =>
      refine .bind (findEntry_same hbuiltin (hfd tabIndex) SysTableStruct.asIndex_returns _)
        fun index? => ?_
      cases index? with
      | none => exact .ret _
      | some index =>
          refine .bind (searchForCatalogEntry_same hbuiltin (hfd tabIndexColumn) _ _)
            fun rows => .ite (logFatal_returns _) ?_
          refine .bind (.lift (.mapM SysTableStruct.asIndexColumn_returns _)) fun cols => ?_
          refine .bind .state fun st => .bind (indexDescCreate_same hbuiltin (hfd tabType) _ _)
            fun _ => ?_
          exact .bind (.modify fun _ h => h) fun _ => .ret _

theorem checkTypes_same (typids : List Nat) :
    Same (checkTypes builtin fd typids) (checkTypes builtin fd' typids) := by
  induction typids with
  | nil => exact .ret _
  | cons typid typids ih =>
      refine .bind (findType_same hbuiltin (hfd tabType) typid) fun typ? => ?_
      cases typ? with
      | none => exact logError_returns _
      | some typ => exact ih

theorem addTable_same (args : AddTableArgs) :
    Same (addTable builtin fd args) (addTable builtin fd' args) := by
  refine .bind (.lift (AddTableArgs.checkSizes_returns _)) fun a => ?_
  refine .bind (checkTypes_same hbuiltin hfd _) fun _ => .bind allocateOid_same fun tabid => ?_
  refine .ite (logError_returns _) (.ite (.failure nofun) ?_)
  exact .bind (insertCatalogEntries_same hfd _ _) fun _ =>
    .bind (insertCatalogEntries_same hfd _ _) fun _ => .ret _

theorem checkOperatorArgs_same (function : SysTableFunction)
    (opfuncid eqfuncid idxcoltypid : Nat) (funcargids : List Int) :
    Same (checkOperatorArgs builtin fd function opfuncid eqfuncid idxcoltypid funcargids)
      (checkOperatorArgs builtin fd' function opfuncid eqfuncid idxcoltypid funcargids) := by
  induction funcargids with
  | nil => exact .ret _
  | cons funcargid funcargids ih =>
      refine .bind (findEntry_same hbuiltin (hfd tabFunctionArgs)
        SysTableStruct.asFunctionArgs_returns _) fun functionargs? => ?_
      cases functionargs? with
      | none => exact logError_returns _
      | some functionargs => exact .ite (logError_returns _) ih

theorem checkOperator_same (eqfuncid idxcoltypid opfuncid : Nat) :
    Same (checkOperator builtin fd eqfuncid idxcoltypid opfuncid)
      (checkOperator builtin fd' eqfuncid idxcoltypid opfuncid) := by
  refine .ite (.ret _) ?_
  refine .bind (findEntry_same hbuiltin (hfd tabFunction) SysTableStruct.asFunction_returns _)
    fun function? => ?_
  cases function? with
  | none => exact .failure nofun
  | some function =>
      exact .ite (logError_returns _) (checkOperatorArgs_same hbuiltin hfd _ _ _ _ _)

theorem findKeyOperator_same (needed : Bool) (optype idxtyp idxcoltypid funcid : Nat) :
    Same (findKeyOperator builtin fd needed optype idxtyp idxcoltypid funcid)
      (findKeyOperator builtin fd' needed optype idxtyp idxcoltypid funcid) := by
  have hrest : ∀ funcid, Same
      (if funcid = invalidOid then do
          let name ← Eff.ofExcept (IdxType.getName idxtyp)
          logError ("can't find \"" ++ OpType.symbol optype ++ "\" operator for type " ++
            toString idxcoltypid ++ " required by index type " ++ name)
        else return funcid)
      (if funcid = invalidOid then do
          let name ← Eff.ofExcept (IdxType.getName idxtyp)
          logError ("can't find \"" ++ OpType.symbol optype ++ "\" operator for type " ++
            toString idxcoltypid ++ " required by index type " ++ name)
        else return funcid) :=
    fun _ => .ite (.bind (.lift (IdxType.getName_returns _)) fun _ => logError_returns _) (.ret _)
  refine .ite ?_ (.ret _)
  split
  · exact .bind (findOperator_same hbuiltin hfd _ _ _) hrest
  · exact .bind (.ret _) hrest

theorem checkKeyColumn_same (tabschema : Schema) (idxtyp : Nat) (tabcolid : Int)
    (eqfuncid ltfuncid : Nat) :
    Same (checkKeyColumn builtin fd tabschema idxtyp tabcolid eqfuncid ltfuncid)
      (checkKeyColumn builtin fd' tabschema idxtyp tabcolid eqfuncid ltfuncid) := by
  refine .ite (logError_returns _) (.ite (.failure nofun) ?_)
  refine .bind (.lift (IdxType.needsEqualOperator_returns _)) fun _ => ?_
  refine .bind (findKeyOperator_same hbuiltin hfd _ _ _ _ _) fun _ => ?_
  refine .bind (.lift (IdxType.needsLessOperator_returns _)) fun _ => ?_
  refine .bind (findKeyOperator_same hbuiltin hfd _ _ _ _ _) fun _ => ?_
  refine .bind (checkOperator_same hbuiltin hfd _ _ _) fun _ => ?_
  exact .bind (checkOperator_same hbuiltin hfd _ _ _) fun _ => .ret _

theorem checkKeyColumns_same (tabschema : Schema) (idxtyp : Nat) (keys : List (Int × Nat × Nat)) :
    Same (checkKeyColumns builtin fd tabschema idxtyp keys)
      (checkKeyColumns builtin fd' tabschema idxtyp keys) := by
  induction keys with
  | nil => exact .ret _
  | cons key keys ih =>
      exact .bind (checkKeyColumn_same hbuiltin hfd _ _ _ _ _) fun _ => .bind ih fun _ => .ret _

theorem addIndex_same [StrJoin] (a : AddIndexArgs) :
    Same (addIndex builtin fd a) (addIndex builtin fd' a) := by
  refine .bind (hfd a.idxtabid) fun tabdesc? => ?_
  cases tabdesc? with
  | none => exact logError_returns _
  | some tabdesc =>
      refine .bind (.lift (indexName_returns _ _)) fun _ => ?_
      refine .bind (.lift (checkIndexArgs_returns _)) fun _ => ?_
      refine .bind (checkKeyColumns_same hbuiltin hfd _ _ _) fun _ => ?_
      refine .bind allocateOid_same fun _ => .ite (logError_returns _) ?_
      exact .bind (insertCatalogEntries_same hfd _ _) fun _ =>
        .bind (insertCatalogEntries_same hfd _ _) fun _ => .ret _

theorem findAllIndexesOfTable_same (idxtabid : Nat) :
    Same (findAllIndexesOfTable builtin fd idxtabid) (findAllIndexesOfTable builtin fd' idxtabid) :=
  .bind (searchForCatalogEntry_same hbuiltin (hfd tabIndex) _ _) fun _ =>
    .bind (.lift (.mapM SysTableStruct.asIndex_returns _)) fun _ => .ret _

end

/-- A call does the same with every bound on the depth from two on. -/
theorem exec_same [StrJoin] (n : Nat) (call : CatCall) :
    Same (call.exec builtin (n + 2)) (call.exec builtin 2) := by
  have hfd : ∀ tabid, Same (findTableDesc builtin (n + 2) tabid) (findTableDesc builtin 2 tabid) := by
    intro tabid st h
    obtain ⟨heq, hmin, hret⟩ := findTableDesc_same hbuiltin n tabid st h
    exact ⟨heq.trans (findTableDesc_same hbuiltin 0 tabid st h).1.symm, hmin, hret⟩
  cases call with
  | findTable tabid =>
      exact .bind (findEntry_same hbuiltin (hfd _) SysTableStruct.asTable_returns _) fun _ => .ret _
  | findTableByName tabname =>
      exact .bind (findMember_same hbuiltin (hfd _) SysTableStruct.asTable_returns _ _)
        fun _ => .ret _
  | findTableDesc tabid => exact .bind (hfd tabid) fun _ => .ret _
  | findType typid => exact .bind (findType_same hbuiltin (hfd _) _) fun _ => .ret _
  | findFunction funcid =>
      exact .bind (findEntry_same hbuiltin (hfd _) SysTableStruct.asFunction_returns _) fun _ => .ret _
  | findFunctionByName funcname =>
      exact .bind (findMember_same hbuiltin (hfd _) SysTableStruct.asFunction_returns _ _)
        fun _ => .ret _
  | findFunctionArgs funcid funcargid =>
      exact .bind (findEntry_same hbuiltin (hfd _) SysTableStruct.asFunctionArgs_returns _)
        fun _ => .ret _
  | findIndex idxid =>
      exact .bind (findEntry_same hbuiltin (hfd _) SysTableStruct.asIndex_returns _) fun _ => .ret _
  | findIndexByName idxname =>
      exact .bind (findMember_same hbuiltin (hfd _) SysTableStruct.asIndex_returns _ _)
        fun _ => .ret _
  | findAllIndexesOfTable idxtabid =>
      exact .bind (findAllIndexesOfTable_same hbuiltin hfd _) fun _ => .ret _
  | findIndexDesc idxid => exact .bind (findIndexDesc_same hbuiltin hfd _) fun _ => .ret _
  | findOperator optype oparg0typid oparg1typid =>
      exact .bind (findOperator_same hbuiltin hfd _ _ _) fun _ => .ret _
  | searchForCatalogEntry mode systabid preds =>
      exact .bind (searchForCatalogEntry_same hbuiltin (hfd _) _ _) fun _ => .ret _
  | addTable args => exact .bind (addTable_same hbuiltin hfd _) fun _ => .ret _
  | addIndex args => exact .bind (addIndex_same hbuiltin hfd _) fun _ => .ret _

end

/-- A step of the catalog cache: a call, whatever its outcome. -/
def callStep [StrJoin] (builtin : BuiltinTable) (n : Nat) (st : CatCache) (call : CatCall) :
    CatCache :=
  (call.exec builtin n st).2

/-- After any calls, the descriptors of the three systables are in the cache, every call
comes back, a greater bound on the depth of the recursion changes nothing, and
`FindTableDesc` asks only for descriptors that are in the cache. -/
theorem findTableDesc_terminates [StrJoin] {builtin : BuiltinTable} (hbuiltin : builtin.Returns)
    {st : CatCache} (h : MinCached st) (depth : Nat) (calls : List CatCall) :
    MinCached (run (callStep builtin (depth + 2)) st calls) ∧
    (∀ n tabid, findTableDesc builtin (n + 2) tabid (run (callStep builtin (depth + 2)) st calls) =
      findTableDescStep builtin cachedTableDesc tabid
        (run (callStep builtin (depth + 2)) st calls)) ∧
    (∀ n tabid, (findTableDesc builtin (n + 2) tabid
      (run (callStep builtin (depth + 2)) st calls)).1 ≠ .error .diverges) ∧
    ∀ n call, CatCall.exec builtin (n + 2) call (run (callStep builtin (depth + 2)) st calls) =
        CatCall.exec builtin 2 call (run (callStep builtin (depth + 2)) st calls) ∧
      (CatCall.exec builtin (n + 2) call (run (callStep builtin (depth + 2)) st calls)).1 ≠
        .error .diverges := by
  have hmin : MinCached (run (callStep builtin (depth + 2)) st calls) :=
    run_invariant (fun st call hst => (exec_same hbuiltin depth call st hst).2.1) h calls
  refine ⟨hmin, ?_, ?_, ?_⟩
  · exact fun n tabid => (findTableDesc_same hbuiltin n tabid _ hmin).1
  · exact fun n tabid hdiv => (findTableDesc_same hbuiltin n tabid _ hmin).2.2 _ hdiv rfl
  · intro n call
    obtain ⟨heq, -, hret⟩ := exec_same hbuiltin n call _ hmin
    exact ⟨heq, fun hdiv => hret _ hdiv rfl⟩

end CatCache

end Taco
