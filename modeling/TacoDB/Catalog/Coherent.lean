import TacoDB.Catalog.RowComparison
import TacoDB.Catalog.Contents
import TacoDB.Catalog.OidAllocation
import TacoDB.Catalog.Termination

/-!
# The catalog cache and its content

`Stores` says that the files of the catalog cache hold a content: each systable has a file
of its own, whose records decode to the rows of the systable. `Coherent` says that the
cache agrees with the files: a cached row is the one its record decodes to, and a cached
descriptor is the one that can be made of the rows. On such a state a search returns what
the content says.
-/

namespace Taco

open Eff Initoids SlotHeap

namespace Content

def rows (c : Content) (systabid : Nat) : List SysTableStruct :=
  if systabid = tabTable then c.tables.map .table
  else if systabid = tabType then c.types.map .type
  else if systabid = tabColumn then c.columns.map .column
  else if systabid = tabFunction then c.functions.map .function
  else if systabid = tabFunctionArgs then c.functionArgs.map .functionArgs
  else if systabid = tabOperator then c.operators.map .operator
  else if systabid = tabIndex then c.indexes.map .index
  else c.indexColumns.map .indexColumn

def fidOf (c : Content) (systabid : Nat) : Nat := (c.findTable systabid).elim invalidFid (·.tabfid)

/-- The systables are described by their own rows, as in the files they are built from, and
have different files. -/
structure Describes (c : Content) : Prop where
  tables : ∀ k ∈ systabids, ∃ table, c.findTable k = some table ∧
    table.tabncols = (systableColumnsOf k).length
  fids : ∀ k ∈ systabids, ∀ k' ∈ systabids, c.fidOf k = c.fidOf k' → k = k'
  columns : ∀ k ∈ systabids, c.columnsOf k = systableColumnsOf k
  types : c.types = typeRows

structure Issued (c : Content) (next : Nat) : Prop where
  tables : ∀ r ∈ c.tables, r.tabid < next
  columns : ∀ r ∈ c.columns, r.coltabid < next
  indexes : ∀ r ∈ c.indexes, r.idxid < next
  indexColumns : ∀ r ∈ c.indexColumns, r.idxcolidxid < next

end Content

structure HoldsRows (systabid : Nat) (f : InmemFile) (rows : List SysTableStruct) : Prop where
  decodes : ∀ rec ∈ f.records, ∃ data, (systableSchema systabid).dissemblePayload rec = .ok data
  rows_eq : f.records.map (fun rec =>
    SysTableStruct.ofData systabid ((systableSchema systabid).rowData rec)) = rows

structure Stores (files : VolatileFiles) (c : Content) : Prop where
  wellFormed : files.WellFormed
  describes : c.Describes
  holds : ∀ k ∈ systabids, ∃ f, files.file? (c.fidOf k) = some f ∧ HoldsRows k f (c.rows k)
  next : ∃ page, files.dbmetaPage = some page ∧ maxSysOid < page.nextOid ∧
    page.nextOid ≤ maxOid + 1 ∧ c.Issued page.nextOid

/-- The cache agrees with the files, which hold the content. Only when it is `ready` can it
make new descriptors. -/
structure Coherent (builtin : BuiltinTable) (ready : Bool) (files : VolatileFiles) (c : Content)
    (st : CatCache) : Prop where
  files_eq : st.files = files
  initialized : st.initialized = ready
  useIndex : st.useIndex = false
  cachedRows : ∀ k ∈ systabids, ∀ f, files.file? (c.fidOf k) = some f →
    ∀ j row, st.recidLookupTable ⟨c.fidOf k, j⟩ = some row →
      ∃ rec, f.slots[j]? = some ⟨true, rec⟩ ∧
        SysTableStruct.create k ((systableSchema k).rowData rec) = .ok row
  cachedTables : ∀ tabid desc, st.tableDesc tabid = some desc →
    c.findTableDesc builtin tabid = .ok (some desc)
  cachedIndexes : ∀ idxid desc, st.indexDesc idxid = some desc →
    c.findIndexDesc builtin idxid = .ok (some desc)
  minCached : CatCache.MinCached st

section

variable {builtin : BuiltinTable} {c : Content} {files : VolatileFiles} {ready : Bool}

theorem Content.Describes.findsTypes (h : c.Describes) : FindsTypes c.findType := by
  intro oid hoid
  rw [Content.findType, h.types, oidOf, Nat.mod_eq_of_lt hoid]
  rfl

theorem mem_systabids_lt {k : Nat} (h : k ∈ systabids) : k < 2 ^ 32 := by
  revert k
  decide

theorem Content.Describes.findTableDesc (h : c.Describes) (builtin : BuiltinTable) {k : Nat}
    (hk : k ∈ systabids) {table : SysTableTable} (ht : c.findTable k = some table) :
    c.findTableDesc builtin k = .ok (some { table, schema := systableSchema k }) := by
  obtain ⟨table', ht', hncols⟩ := h.tables k hk
  rw [ht] at ht'
  cases ht'
  have hid : table.tabid = k := by
    have := List.find?_some ht
    simp only [decide_eq_true_eq] at this
    rw [this, oidOf, Nat.mod_eq_of_lt (mem_systabids_lt hk)]
  have hall : ∀ k ∈ systabids, (systableColumnsOf k).length ≠ 0 ∧
      (systableColumnsOf k).length ≤ 9 ∧
      sortColumns false (systableColumnsOf k) = systableColumnsOf k := by
    decide +kernel
  have hlen := hall k hk
  have hsize : toSize table.tabncols = (systableColumnsOf k).length := by
    rw [toSize, hncols]
    omega
  have hcreate : TableDesc.createOf c.findType builtin table (systableColumnsOf k) =
      .ok (some { table, schema := systableSchema k }) :=
    (create_systable (I := fun _ : Unit => True) hk h.findsTypes (fun oid => .ret _) builtin hid ()
      trivial).1
  unfold Content.findTableDesc Content.describeTable
  rw [ht]
  dsimp only
  rw [hsize, if_neg (by unfold maxVectorSize; omega), h.columns k hk, takeExpected,
    if_neg hlen.1, List.take_length, if_neg (not_not_intro rfl), hlen.2.2, hcreate]
  rfl

theorem emplace_eq_some {κ α : Type} [DecidableEq κ] {m : κ → Option α} {k k' : κ} {a b : α}
    (h : emplace m k a k' = some b) : m k' = some b ∨ (k' = k ∧ b = a) := by
  unfold emplace at h
  split at h
  · exact Or.inl h
  · rw [Function.update_apply] at h
    split at h
    · rename_i heq
      cases h
      exact Or.inr ⟨heq, rfl⟩
    · exact Or.inl h

namespace Coherent

variable {st : CatCache}

theorem cacheRow (h : Coherent builtin ready files c st) (hs : Stores files c) {k : Nat}
    (hk : k ∈ systabids) {f : InmemFile} (hf : files.file? (c.fidOf k) = some f) {j : Nat}
    {rec : ByteString} {row : SysTableStruct} (hslot : f.slots[j]? = some ⟨true, rec⟩)
    (hrow : SysTableStruct.create k ((systableSchema k).rowData rec) = .ok row) :
    Coherent builtin ready files c (CatCache.cacheRow ⟨c.fidOf k, j⟩ row st) where
  files_eq := h.files_eq
  initialized := h.initialized
  useIndex := h.useIndex
  cachedRows := by
    intro k' hk' f' hf' j' row' hrow'
    rcases emplace_eq_some hrow' with hold | ⟨heq, rfl⟩
    · exact h.cachedRows k' hk' f' hf' j' row' hold
    · obtain ⟨hfid, rfl⟩ := RecordId.mk.inj heq
      cases hs.describes.fids k' hk' k hk hfid
      rw [hf] at hf'
      cases hf'
      exact ⟨rec, hslot, hrow⟩
  cachedTables := h.cachedTables
  cachedIndexes := h.cachedIndexes
  minCached := h.minCached

theorem cacheTableDesc (h : Coherent builtin ready files c st) {desc : TableDesc}
    (hdesc : c.findTableDesc builtin desc.table.tabid = .ok (some desc)) :
    Coherent builtin ready files c (CatCache.cacheTableDesc desc st) where
  files_eq := h.files_eq
  initialized := h.initialized
  useIndex := h.useIndex
  cachedRows := h.cachedRows
  cachedTables := by
    intro tabid desc' hcached
    rcases emplace_eq_some hcached with hold | ⟨rfl, rfl⟩
    · exact h.cachedTables tabid desc' hold
    · exact hdesc
  cachedIndexes := h.cachedIndexes
  minCached := fun k hk => CatCache.isSome_emplace _ _ _ _ (h.minCached k hk)

theorem cacheIndexDesc (h : Coherent builtin ready files c st) {idxid : Nat} {desc : IndexDesc}
    (hdesc : c.findIndexDesc builtin idxid = .ok (some desc)) :
    Coherent builtin ready files c (CatCache.cacheIndexDesc idxid desc st) where
  files_eq := h.files_eq
  initialized := h.initialized
  useIndex := h.useIndex
  cachedRows := h.cachedRows
  cachedTables := h.cachedTables
  cachedIndexes := by
    intro idxid' desc' hcached
    rcases emplace_eq_some hcached with hold | ⟨rfl, rfl⟩
    · exact h.cachedIndexes idxid' desc' hold
    · exact hdesc
  minCached := h.minCached

end Coherent

theorem Stores.scannable (hs : Stores files c) {k : Nat} (hk : k ∈ systabids) {f : InmemFile}
    (hf : files.file? (c.fidOf k) = some f) (hrows : HoldsRows k f (c.rows k)) :
    CatCache.Scannable (Coherent builtin ready files c) k (c.fidOf k) (systableSchema k) f where
  wellFormed := hs.wellFormed.file hf
  file := fun st hst => by rw [hst.files_eq, hf]
  decodes := hrows.decodes
  cached := by
    intro st hst j rec row hslot hrow
    obtain ⟨rec', hslot', hcreate⟩ := hst.cachedRows k hk f hf j row hrow
    rw [hslot] at hslot'
    cases hslot'
    exact hcreate
  cacheRow := fun st hst j rec row hslot hcreate => hst.cacheRow hs hk hf hslot hcreate

/-- A lookup of descriptors answers for a systable with its row and its schema. -/
def Answers (I : CatCache → Prop) (fd : Nat → Eff Failure CatCache (Option TableDesc))
    (c : Content) (systabid : Nat) : Prop :=
  ∃ table, c.findTable systabid = some table ∧
    Computes I (fd systabid) (.ok (some { table, schema := systableSchema systabid }))

/-- A kind of rows: the systable they are in, and the struct that is made of them. -/
structure RowKind (α : Type) where
  systabid : Nat
  mem : systabid ∈ systabids
  wrap : α → SysTableStruct
  cast : SysTableStruct → Except Failure α
  ofData : List Datum → α
  list : Content → List α
  cast_wrap : ∀ a, cast (wrap a) = .ok a
  wrap_ofData : ∀ data, SysTableStruct.ofData systabid data = wrap (ofData data)
  rows_eq : ∀ c : Content, c.rows systabid = (list c).map wrap

namespace RowKind

def table : RowKind SysTableTable :=
  ⟨tabTable, by decide, .table, SysTableStruct.asTable, .ofData, (·.tables), fun _ => rfl,
    fun _ => rfl, fun _ => rfl⟩

def type : RowKind SysTableType :=
  ⟨tabType, by decide, .type, SysTableStruct.asType, .ofData, (·.types), fun _ => rfl,
    fun _ => rfl, fun _ => rfl⟩

def column : RowKind SysTableColumn :=
  ⟨tabColumn, by decide, .column, SysTableStruct.asColumn, .ofData, (·.columns), fun _ => rfl,
    fun _ => rfl, fun _ => rfl⟩

def function : RowKind SysTableFunction :=
  ⟨tabFunction, by decide, .function, SysTableStruct.asFunction, .ofData, (·.functions),
    fun _ => rfl, fun _ => rfl, fun _ => rfl⟩

def functionArgs : RowKind SysTableFunctionArgs :=
  ⟨tabFunctionArgs, by decide, .functionArgs, SysTableStruct.asFunctionArgs, .ofData,
    (·.functionArgs), fun _ => rfl, fun _ => rfl, fun _ => rfl⟩

def operator : RowKind SysTableOperator :=
  ⟨tabOperator, by decide, .operator, SysTableStruct.asOperator, .ofData, (·.operators),
    fun _ => rfl, fun _ => rfl, fun _ => rfl⟩

def index : RowKind SysTableIndex :=
  ⟨tabIndex, by decide, .index, SysTableStruct.asIndex, .ofData, (·.indexes), fun _ => rfl,
    fun _ => rfl, fun _ => rfl⟩

def indexColumn : RowKind SysTableIndexColumn :=
  ⟨tabIndexColumn, by decide, .indexColumn, SysTableStruct.asIndexColumn, .ofData,
    (·.indexColumns), fun _ => rfl, fun _ => rfl, fun _ => rfl⟩

variable {α : Type} (kind : RowKind α)

theorem wrap_injective : Function.Injective kind.wrap := by
  intro a b hab
  have hcast := kind.cast_wrap a
  rw [hab, kind.cast_wrap b] at hcast
  cases hcast
  rfl

theorem list_eq {f : InmemFile} (hrows : HoldsRows kind.systabid f (c.rows kind.systabid)) :
    kind.list c = (f.records.map (systableSchema kind.systabid).rowData).map kind.ofData := by
  have h := hrows.rows_eq
  rw [kind.rows_eq] at h
  apply List.map_injective_iff.mpr kind.wrap_injective
  rw [← h, List.map_map, List.map_map]
  exact List.map_congr_left fun rec _ => kind.wrap_ofData _

theorem mapM_cast (l : List α) : (l.map kind.wrap).mapM kind.cast = .ok l := by
  induction l with
  | nil => rfl
  | cons a l ih =>
      rw [List.map_cons, List.mapM_cons, kind.cast_wrap, ok_bind, ih]
      rfl

def Says (builtin : BuiltinTable) (preds : List Predicate) (q : α → Bool) : Prop :=
  (∀ p ∈ preds, p.Strict builtin ∧ p.fieldid < (systableColumnsOf kind.systabid).length) ∧
    ∀ data, RowFields kind.systabid data →
      (preds.all fun p => p.holds builtin data) = q (kind.ofData data)

end RowKind

theorem rowFields_of_holds {k : Nat} (hk : k ∈ systabids) {f : InmemFile}
    {rows : List SysTableStruct} (h : HoldsRows k f rows) :
    ∀ data ∈ f.records.map (systableSchema k).rowData, RowFields k data := by
  intro data hdata
  obtain ⟨rec, hrec, rfl⟩ := List.mem_map.mp hdata
  obtain ⟨data, hdissemble⟩ := h.decodes rec hrec
  rw [Schema.rowData_eq hdissemble]
  exact rowFields_of_dissemble hk hdissemble

namespace CatCache

section

variable {fd : Nat → Eff Failure CatCache (Option TableDesc)} {mode : SearchMode}
  {preds : List Predicate}

/-- The search returns the rows on which all predicates hold, in the order of the file. -/
theorem searchForCatalogEntry_computes (hs : Stores files c) {k : Nat} (hk : k ∈ systabids)
    (hfd : Answers (Coherent builtin ready files c) fd c k) {f : InmemFile}
    (hf : files.file? (c.fidOf k) = some f)
    (hstrict : ∀ p ∈ preds, p.Strict builtin ∧ p.fieldid < (systableColumnsOf k).length)
    (hunique : mode.expectUnique = true → mode.expectN ≤ 1)
    (hmax : mode.expectUnique = false → mode.expectN ≤ maxVectorSize) :
    Computes (Coherent builtin ready files c) (searchForCatalogEntry builtin fd mode k preds)
      (.ok (mode.upTo 0 (((f.records.map (systableSchema k).rowData).filter
        fun data => preds.all fun p => p.holds builtin data).map (SysTableStruct.ofData k)))) := by
  obtain ⟨table, ht, hanswer⟩ := hfd
  obtain ⟨f', hf', hrows⟩ := hs.holds k hk
  rw [hf] at hf'
  cases hf'
  have hscan : Scannable (Coherent builtin ready files c) k (c.fidOf k) (systableSchema k) f :=
    hs.scannable hk hf hrows
  have hwf := hs.wellFormed.file hf
  have hfields := rowFields_of_holds hk hrows
  have hfid : table.tabfid = c.fidOf k := by
    rw [Content.fidOf, ht]
    rfl
  have hdatas : (f.recordsFrom 0).map (fun r => (systableSchema k).rowData r.2) =
      f.records.map (systableSchema k).rowData := by
    simp only [InmemFile.records_eq, List.map_map, Function.comp_def]
  have hfieldid : ∀ p ∈ preds, (p.fieldid : Int) < (systableSchema k).getNumFields := by
    intro p hp
    have := (hstrict p hp).2
    rw [(systableSchema_fields hk).1]
    exact_mod_cast this
  have hrun : searchRows builtin mode k preds (f.records.map (systableSchema k).rowData) [] = _ :=
    searchRows_eq
      (fun data hdata => dataMatches_eq (fun p hp => (hstrict p hp).1)
        (fun p hp => by rw [(hfields data hdata).length]; exact (hstrict p hp).2)
        (hfields data hdata).notNull)
      (fun data hdata => SysTableStruct.create_eq hk (hfields data hdata).length) []
  unfold searchForCatalogEntry
  have hassert : (!mode.expectUnique || decide (mode.expectN ≤ 1)) = true := by
    cases hu : mode.expectUnique with
    | false => rfl
    | true => exact decide_eq_true (hunique hu)
  rw [hassert]
  refine .bind_ok (.ret ()) ?_
  rw [if_neg (by
    rintro ⟨hu, hn⟩
    have := hmax (by simpa using hu)
    omega)]
  refine .bind_ok hanswer (.state fun st hst => ?_)
  rw [hst.useIndex, if_neg Bool.false_ne_true, hfid]
  refine Computes.bind_ok (onFiles_computes fun st hst => openCatalogFile_eq
    (by rw [hst.files_eq, hf])) ?_ st hst
  refine .bind_ok (onFiles_computes fun st hst => iterateCatEntry_eq
    (by rw [hst.files_eq, hf]) hwf) ?_
  rw [show (iteratorAt (c.fidOf k) f 0).endidx = f.offsets.length from rfl,
    show (iteratorAt (c.fidOf k) f 0).nextidx = 0 from rfl]
  dsimp only
  refine .congr (searchLoop_computes hscan mode hfieldid (Nat.zero_le _) (Nat.lt_succ_self _) []) ?_
  rw [hdatas, hrun, List.nil_append, List.length_nil]

variable {α : Type} (kind : RowKind α) {q : α → Bool}

theorem searchKind_computes (hs : Stores files c)
    (hfd : Answers (Coherent builtin ready files c) fd c kind.systabid)
    (hselects : kind.Says builtin preds q)
    (hunique : mode.expectUnique = true → mode.expectN ≤ 1)
    (hmax : mode.expectUnique = false → mode.expectN ≤ maxVectorSize) :
    Computes (Coherent builtin ready files c)
      (searchForCatalogEntry builtin fd mode kind.systabid preds)
      (.ok (mode.upTo 0 (((kind.list c).filter q).map kind.wrap))) := by
  obtain ⟨f, hf, hrows⟩ := hs.holds kind.systabid kind.mem
  refine .congr (searchForCatalogEntry_computes hs kind.mem hfd hf hselects.1 hunique hmax) ?_
  have hfields := rowFields_of_holds kind.mem hrows
  rw [List.filter_congr fun data hdata => hselects.2 data (hfields data hdata), kind.list_eq hrows,
    List.filter_map (l := _) (f := kind.ofData), List.map_map (f := kind.ofData)]
  exact congrArg (fun l => Except.ok (mode.upTo 0 l))
    (List.map_congr_left fun data _ => kind.wrap_ofData data)

theorem findEntry_computes (hs : Stores files c)
    (hfd : Answers (Coherent builtin ready files c) fd c kind.systabid)
    (hselects : kind.Says builtin preds q) :
    Computes (Coherent builtin ready files c)
      (searchForUniqueEntry builtin fd kind.systabid preds >>= castEntry kind.cast)
      (.ok ((kind.list c).find? q)) := by
  have hsearch : Computes (Coherent builtin ready files c)
      (searchForCatalogEntry builtin fd ⟨true, false, 0⟩ kind.systabid preds) _ :=
    searchKind_computes kind hs hfd hselects (fun _ => Nat.zero_le 1) nofun
  refine .bind_ok (.bind_ok hsearch (.ret _)) ?_
  have hhead : ((SearchMode.mk true false 0).upTo 0
      (((kind.list c).filter q).map kind.wrap)).head? = ((kind.list c).find? q).map kind.wrap := by
    rw [SearchMode.upTo, if_pos rfl, List.head?_take, if_neg (by decide), List.head?_map,
      List.head?_filter]
  rw [hhead]
  cases (kind.list c).find? q with
  | none => exact .ret _
  | some a => exact .bind_ok (.congr (.lift _) (kind.cast_wrap a)) (.ret _)

theorem findMember_computes (hs : Stores files c)
    (hfd : Answers (Coherent builtin ready files c) fd c kind.systabid)
    (hselects : kind.Says builtin preds q) {β : Type} (get : Option α → β) :
    Computes (Coherent builtin ready files c)
      (searchForUniqueEntry builtin fd kind.systabid preds >>= fun row? =>
        castEntry kind.cast row? >>= fun row? => pure (get row?))
      (.ok (get ((kind.list c).find? q))) := by
  have h := Computes.bind_ok (f := fun row? => (pure (get row?) : Eff Failure CatCache β))
    (findEntry_computes kind hs hfd hselects) (.ret _)
  intro st hst
  have hst' := h st hst
  rwa [bind_assoc] at hst'

theorem findRows_computes (hs : Stores files c)
    (hfd : Answers (Coherent builtin ready files c) fd c kind.systabid)
    (hselects : kind.Says builtin preds q) (noCache : Bool) (n : Nat) :
    Computes (Coherent builtin ready files c)
      (searchForCatalogEntry builtin fd { expectUnique := false, noCache, expectN := n }
        kind.systabid preds)
      (if maxVectorSize < n then .error (.exception "std::length_error")
        else .ok ((takeExpected n ((kind.list c).filter q)).map kind.wrap)) := by
  split
  · rename_i hlt
    unfold searchForCatalogEntry
    refine .bind_ok (.ret ()) ?_
    rw [if_pos ⟨rfl, hlt⟩]
    exact .failure _
  · rename_i hle
    refine .congr (searchKind_computes kind hs hfd hselects nofun fun _ => Nat.not_lt.mp hle) ?_
    rw [SearchMode.upTo, if_neg Bool.false_ne_true, takeExpected]
    dsimp only
    by_cases hn : n = 0
    · rw [if_pos (Or.inl hn), if_pos hn]
    · rw [if_neg (by omega), if_neg hn, Nat.sub_zero, List.map_take]

end

end CatCache

end

end Taco
