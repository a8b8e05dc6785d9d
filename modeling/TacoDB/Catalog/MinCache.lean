import TacoDB.Catalog.InitCatalog
import TacoDB.Catalog.Inserts
import TacoDB.Catalog.ReaderTotal

/-!
# The cache after `LoadMinCache`

`LoadMinCache` goes through the files of `Table` and `Type` with the schemas of
`BootstrapCatCache`, and puts into the cache the rows it finds there and the descriptors of
`Table`, `Type` and `Column`. When the files hold a content, what it puts there agrees with
the content. It only returns when it has found the three descriptors.
-/

namespace Taco

open Eff Initoids SlotHeap CatCache

namespace BootstrapCatCache

open InitDataFileReader in
theorem computeLayout_congr (builtin builtin' : BuiltinTable) (s : Schema) :
    computeLayout builtin s = computeLayout builtin' s :=
  Schema.layoutOf_congr (fun _ _ => rfl) fun _ _ typ htyp =>
    (bootstrapTypes_rows typ (findBootstrapType_some htyp).1).2.1

theorem init_congr (builtin builtin' : BuiltinTable) : init builtin = init builtin' := by
  have hcreate : createTableDesc builtin = createTableDesc builtin' := by
    funext columns
    unfold createTableDesc
    simp only [computeLayout_congr builtin builtin']
  rw [init, init, hcreate]

theorem init_succeeds (builtin : BuiltinTable) : ∃ descs, init builtin = .ok descs := by
  have hok : (init fun _ => none).toOption.isSome := by decide +kernel
  rw [init_congr builtin fun _ => none]
  cases hinit : init fun _ => none with
  | error e =>
      rw [hinit] at hok
      cases hok
  | ok descs => exact ⟨descs, rfl⟩

theorem findTableDesc_init {builtin : BuiltinTable} {descs : List TableDesc}
    (h : init builtin = .ok descs) {k : Nat} (hk : k ∈ minTables) :
    ∃ desc, findTableDesc descs k = .ok desc ∧ desc.schema = systableSchema k := by
  have hall : ∀ descs ∈ (init fun _ => none).toOption, ∀ k ∈ minTables,
      (findTableDesc descs k).toOption.map (·.schema) = some (systableSchema k) := by
    decide +kernel
  rw [init_congr builtin fun _ => none] at h
  have hschema := hall descs (by rw [h]; rfl) k hk
  cases hdesc : findTableDesc descs k with
  | error e =>
      rw [hdesc] at hschema
      cases hschema
  | ok desc =>
      rw [hdesc] at hschema
      exact ⟨desc, rfl, Option.some.inj hschema⟩

end BootstrapCatCache

/-- `Table` has one row for each of the systables whose descriptors `LoadMinCache` makes. -/
def Content.MinTablesOnce (c : Content) : Prop :=
  c.tables.countP (fun r => r.tabid ∈ minTables) ≤ 3

namespace CatCache

section

variable {builtin : BuiltinTable} {st st' : CatCache} {n : Nat}

/-- Before the cache is initialized only cached descriptors are found. -/
theorem findTableDesc_uninitialized (hinit : st.initialized = false) {tabid : Nat}
    (hnone : st.tableDesc tabid = none) :
    ∃ e, findTableDesc builtin (n + 1) tabid st = (.error e, st) := by
  rw [findTableDesc, findTableDescStep, bind_of_ok (getState_apply st), hnone]
  dsimp only
  by_cases htabid : tabid = tabColumn
  · rw [assert, if_neg (by simp [htabid])]
    exact ⟨_, rfl⟩
  · rw [assert, if_pos (by simp [htabid]), bind_of_ok (pure_apply _ _), hinit, assert,
      if_neg Bool.false_ne_true]
    exact ⟨_, rfl⟩

theorem findTableDesc_cached {tabid : Nat} {desc : TableDesc}
    (hdesc : st.tableDesc tabid = some desc) :
    findTableDesc builtin (n + 1) tabid st = (.ok (some desc), st) := by
  rw [findTableDesc, findTableDescStep_cached hdesc]

theorem minTypids_ok (hinit : st.initialized = false) {tabids typids : List Nat}
    (h : minTypids (findTableDesc builtin (n + 1)) tabids st = (.ok typids, st')) :
    st' = st ∧ ∀ k ∈ tabids, (st.tableDesc k).isSome := by
  induction tabids generalizing typids st' with
  | nil =>
      obtain ⟨-, rfl⟩ := ok_inj h
      exact ⟨rfl, nofun⟩
  | cons tabid tabids ih =>
      rw [minTypids] at h
      obtain ⟨desc?, st₁, hrun, h⟩ := bind_eq_ok_iff.mp h
      cases hdesc : st.tableDesc tabid with
      | none =>
          obtain ⟨e, he⟩ : ∃ e, findTableDesc builtin (n + 1) tabid st = (.error e, st) :=
            findTableDesc_uninitialized hinit hdesc
          rw [he] at hrun
          cases hrun
      | some desc =>
          rw [findTableDesc_cached hdesc] at hrun
          cases hrun
          obtain ⟨typids', st₂, hrest, hret⟩ := bind_eq_ok_iff.mp h
          obtain ⟨rfl, hsome⟩ := ih hrest
          obtain ⟨-, rfl⟩ := ok_inj hret
          refine ⟨rfl, fun k hk => ?_⟩
          rcases List.mem_cons.mp hk with rfl | hk
          · rw [hdesc]
            rfl
          · exact hsome k hk

theorem minTypids_of_cached {tabids : List Nat} (h : ∀ k ∈ tabids, (st.tableDesc k).isSome) :
    ∃ typids, minTypids (findTableDesc builtin (n + 1)) tabids st = (.ok typids, st) := by
  induction tabids with
  | nil => exact ⟨[], rfl⟩
  | cons tabid tabids ih =>
      obtain ⟨desc, hdesc⟩ := Option.isSome_iff_exists.mp (h tabid List.mem_cons_self)
      obtain ⟨typids, hrest⟩ := ih fun k hk => h k (List.mem_cons_of_mem _ hk)
      refine ⟨desc.schema.fields.map (·.typid) ++ typids, ?_⟩
      rw [minTypids, bind_of_ok (findTableDesc_cached hdesc)]
      dsimp only
      rw [bind_of_ok hrest]
      rfl

end

/-- What holds of the records a loop of `LoadMinCache` has gone through and of the cache, and is
kept by its iterations. -/
structure LoadKeeps (P : List (Nat × ByteString) → CatCache → Prop) (fid : Nat) (f : InmemFile)
    (schema : Schema) (oidColid : Nat) (oids : List Nat)
    (load : ByteString → RecordId → Nat → Eff Failure CatCache Unit) : Prop where
  wellFormed : f.WellFormed
  file : ∀ seen st, P seen st → st.files.file? fid = some f
  decodes : ∀ rec ∈ f.records, ∃ data, schema.dissemblePayload rec = .ok data
  colid : (oidColid : Int) < schema.getNumFields
  skip : ∀ seen st j rec, P seen st →
    (fieldOf (schema.rowData rec) oidColid).getUInt 32 ∉ oids → P (seen ++ [(j, rec)]) st
  load : ∀ seen st j rec rest, P seen st → f.slots[j]? = some ⟨true, rec⟩ →
    f.recordsFrom 0 = seen ++ (j, rec) :: f.recordsFrom (j + 1) →
    (fieldOf (schema.rowData rec) oidColid).getUInt 32 ∈ oids →
    ∃ st', load (rec ++ rest) ⟨fid, j⟩ ((fieldOf (schema.rowData rec) oidColid).getUInt 32) st =
      (.ok (), st') ∧ P (seen ++ [(j, rec)]) st'

def recordOid (schema : Schema) (oidColid : Nat) (p : Nat × ByteString) : Nat :=
  (fieldOf (schema.rowData p.2) oidColid).getUInt 32

section

variable {P : List (Nat × ByteString) → CatCache → Prop} {fid : Nat} {f : InmemFile}
  {schema : Schema} {oidColid : Nat} {oids : List Nat}
  {load : ByteString → RecordId → Nat → Eff Failure CatCache Unit}

section

variable {total n i nfound : Nat} {st : CatCache}

theorem loadMinRows_nil (hfile : st.files.file? fid = some f) (hwf : f.WellFormed)
    (hi : i ≤ f.offsets.length) (hrecs : f.recordsFrom i = []) :
    loadMinRows schema oidColid oids total load (n + 1) (iteratorAt fid f i) nfound st =
      (.ok (), st) := by
  have hnext := nextCatEntry_eq hfile hwf hi
  rw [hrecs] at hnext
  have hnext' : onFiles (nextCatEntry (iteratorAt fid f i)) st =
      (.ok (false, iteratorAt fid f (f.offsets.length + 1)), st) := by
    rw [onFiles, hnext]
  rw [loadMinRows, bind_of_ok hnext']
  rfl

/-- An iteration at a record: it is loaded when its identifier is looked for. -/
theorem loadMinRows_cons (hfile : st.files.file? fid = some f) (hwf : f.WellFormed)
    (hcol : (oidColid : Int) < schema.getNumFields) (hi : i ≤ f.offsets.length) {j : Nat}
    {rec : ByteString} {recs : List (Nat × ByteString)} {data : List Datum}
    (hrecs : f.recordsFrom i = (j, rec) :: recs) (hdata : schema.dissemblePayload rec = .ok data) :
    ∃ rest, loadMinRows schema oidColid oids total load (n + 1) (iteratorAt fid f i) nfound st =
      (if recordOid schema oidColid (j, rec) ∈ oids then
        load (rec ++ rest) ⟨fid, j⟩ (recordOid schema oidColid (j, rec)) >>= fun _ =>
          if nfound + 1 = total then pure ()
          else loadMinRows schema oidColid oids total load n (iteratorAt fid f (j + 1)) (nfound + 1)
      else loadMinRows schema oidColid oids total load n (iteratorAt fid f (j + 1)) nfound) st := by
  have hlen := hwf.length_le
  obtain ⟨-, hj, hvalid, -, off, rest, hoff, hmem, -⟩ := hwf.recordsFrom_cons hi hrecs
  have hnext := nextCatEntry_eq hfile hwf hi
  rw [hrecs] at hnext
  have hnext' : onFiles (nextCatEntry (iteratorAt fid f i)) st =
      (.ok (true, iteratorAt fid f (j + 1)), st) := by
    rw [onFiles, hnext]
  have hbuf : onFiles (getCurrentCatEntry (iteratorAt fid f (j + 1))) st =
      (.ok (rec ++ rest), st) := by
    rw [onFiles, getCurrentCatEntry_eq hfile (by omega : j < 65534) hvalid hoff, hmem]
  have hcolid : oidColid < data.length := by
    rw [Schema.length_of_dissemble hdata]
    omega
  have hfield : schema.getField oidColid (rec ++ rest) =
      .ok (fieldOf (schema.rowData rec) oidColid) := by
    rw [Schema.getField_of_dissemble hdata hcol, datumAt,
      List.getElem?_eq_getElem hcolid, Schema.rowData_eq hdata, fieldOf,
      List.getD_eq_getElem?_getD, List.getElem?_eq_getElem hcolid]
    rfl
  have hrecid : getCurrentCatEntryRecordId (iteratorAt fid f (j + 1)) = ⟨fid, j⟩ := by
    rw [getCurrentCatEntryRecordId, curIdx_iteratorAt f (by omega)]
    rfl
  refine ⟨rest, ?_⟩
  rw [loadMinRows, bind_of_ok hnext']
  dsimp only
  rw [Bool.not_true, if_neg Bool.false_ne_true, bind_of_ok hbuf, hfield,
    bind_of_ok (ofExcept_apply _ _), hrecid]
  rfl

end

/-- Such a loop returns, and when there are not more records with these identifiers than it
looks for, it has gone through all of them. -/
theorem loadMinRows_keeps (hkeeps : LoadKeeps P fid f schema oidColid oids load) (total : Nat)
    {n i : Nat} (nfound : Nat) {seen : List (Nat × ByteString)} {st : CatCache}
    (hi : i ≤ f.offsets.length) (hn : f.offsets.length - i < n)
    (hseen : f.recordsFrom 0 = seen ++ f.recordsFrom i) (h : P seen st) :
    ∃ seen' st', loadMinRows schema oidColid oids total load n (iteratorAt fid f i) nfound st =
      (.ok (), st') ∧ P seen' st' ∧ seen <+: seen' ∧
        (nfound + (f.recordsFrom i).countP (fun p => recordOid schema oidColid p ∈ oids) ≤ total →
          ∀ p ∈ f.recordsFrom i, recordOid schema oidColid p ∈ oids → p ∈ seen') := by
  have hwf := hkeeps.wellFormed
  induction n generalizing i nfound seen st with
  | zero => omega
  | succ n ih =>
      have hfile := hkeeps.file seen st h
      cases hrecs : f.recordsFrom i with
      | nil =>
          refine ⟨seen, st, loadMinRows_nil hfile hwf hi hrecs, h, List.prefix_refl _,
            fun _ p hp => ?_⟩
          cases hp
      | cons p recs =>
          obtain ⟨j, rec⟩ := p
          obtain ⟨hij, hj, -, rfl, -, -, -, -, hslot⟩ := hwf.recordsFrom_cons hi hrecs
          obtain ⟨data, hdata⟩ := hkeeps.decodes rec (mem_records hslot)
          obtain ⟨rest, hstep⟩ := loadMinRows_cons hfile hwf hkeeps.colid hi hrecs hdata
          have hseen' : f.recordsFrom 0 = (seen ++ [(j, rec)]) ++ f.recordsFrom (j + 1) := by
            rw [hseen, hrecs, List.append_assoc]
            rfl
          have hfront : ∀ {seen'}, seen ++ [(j, rec)] <+: seen' →
              seen <+: seen' ∧ (j, rec) ∈ seen' := fun hle =>
            ⟨(List.prefix_append _ _).trans hle, hle.subset (by simp)⟩
          rw [hstep]
          by_cases hoids : recordOid schema oidColid (j, rec) ∈ oids
          · obtain ⟨st₁, hload, hst₁⟩ := hkeeps.load seen st j rec rest h hslot
              (by rw [hseen, hrecs]) hoids
            have hcons : ((j, rec) :: f.recordsFrom (j + 1)).countP
                (fun p => recordOid schema oidColid p ∈ oids) =
                  (f.recordsFrom (j + 1)).countP (fun p => recordOid schema oidColid p ∈ oids) + 1 :=
              List.countP_cons_of_pos (decide_eq_true hoids)
            rw [if_pos hoids, recordOid, bind_of_ok hload, hcons]
            by_cases htotal : nfound + 1 = total
            · rw [if_pos htotal]
              refine ⟨_, st₁, rfl, hst₁, List.prefix_append _ _, fun hcount p hp hin => ?_⟩
              rcases List.mem_cons.mp hp with rfl | hp
              · simp
              · -- no other record is looked for
                have hzero : (f.recordsFrom (j + 1)).countP
                    (fun p => recordOid schema oidColid p ∈ oids) = 0 := by omega
                exact absurd (decide_eq_true hin) (List.countP_eq_zero.mp hzero p hp)
            · rw [if_neg htotal]
              obtain ⟨seen', st', hrun, hst', hle, hall⟩ := ih (nfound + 1) (by omega) (by omega)
                hseen' hst₁
              refine ⟨seen', st', hrun, hst', (hfront hle).1, fun hcount p hp hin => ?_⟩
              rcases List.mem_cons.mp hp with rfl | hp
              · exact (hfront hle).2
              · exact hall (by omega) p hp hin
          · have hcons : ((j, rec) :: f.recordsFrom (j + 1)).countP
                (fun p => recordOid schema oidColid p ∈ oids) =
                  (f.recordsFrom (j + 1)).countP (fun p => recordOid schema oidColid p ∈ oids) :=
              List.countP_cons_of_neg (by simpa using hoids)
            rw [if_neg hoids, hcons]
            obtain ⟨seen', st', hrun, hst', hle, hall⟩ :=
              ih nfound (by omega) (by omega) hseen' (hkeeps.skip _ _ _ _ h hoids)
            refine ⟨seen', st', hrun, hst', (hfront hle).1, fun hcount p hp hin => ?_⟩
            rcases List.mem_cons.mp hp with rfl | hp
            · exact absurd hin hoids
            · exact hall hcount p hp hin

theorem loadMinFile_keeps (hkeeps : LoadKeeps P fid f schema oidColid oids load) (total : Nat)
    {st : CatCache} (h : P [] st) :
    ∃ seen st', loadMinFile fid schema oidColid oids total load st = (.ok (), st') ∧ P seen st' ∧
      ((f.recordsFrom 0).countP (fun p => recordOid schema oidColid p ∈ oids) ≤ total →
        ∀ p ∈ f.recordsFrom 0, recordOid schema oidColid p ∈ oids → p ∈ seen) := by
  have hfile := hkeeps.file [] st h
  have hopen : onFiles (openCatalogFile fid) st = (.ok fid, st) := by
    rw [onFiles, openCatalogFile_eq hfile]
  have hiter : onFiles (iterateCatEntry fid) st = (.ok (iteratorAt fid f 0), st) := by
    rw [onFiles, iterateCatEntry_eq hfile hkeeps.wellFormed]
  rw [loadMinFile, bind_of_ok hopen, bind_of_ok hiter]
  have hn : f.offsets.length - 0 < (iteratorAt fid f 0).endidx - (iteratorAt fid f 0).nextidx + 1 :=
    Nat.lt_succ_self _
  obtain ⟨seen, st', hrun, hst', -, hall⟩ := loadMinRows_keeps hkeeps total 0
    (Nat.zero_le _) hn (List.nil_append _).symm h
  exact ⟨seen, st', hrun, hst', fun hcount => hall (by omega)⟩

end

/-- The cache with the descriptors of the content for those that are not loaded yet. -/
def fill (c : Content) (st : CatCache) : CatCache :=
  { st with
    tableDesc := fun k => (st.tableDesc k).or
      (if k ∈ minTables then
        (c.findTable k).map fun table => { table, schema := systableSchema k }
      else none) }

/-- The loop over `Table` has gone through these records: the cache agrees with the content,
and a descriptor that is not loaded is one whose row has not been seen. -/
structure Loading (builtin : BuiltinTable) (files : VolatileFiles) (c : Content)
    (seen : List (Nat × ByteString)) (st : CatCache) : Prop where
  coherent : Coherent builtin false files c (fill c st)
  pending : ∀ k ∈ minTables, st.tableDesc k = none → ∀ p ∈ seen,
    (fieldOf ((systableSchema tabTable).rowData p.2) SysTableTable.tabidColid).getUInt 32 ≠ k

section

variable {builtin : BuiltinTable} {c : Content} {files : VolatileFiles} {st st' : CatCache}
  {seen : List (Nat × ByteString)}

theorem mem_systabids_of_min {k : Nat} (hk : k ∈ minTables) : k ∈ systabids := by
  have hall : ∀ k ∈ minTables, k ∈ systabids := by decide
  exact hall k hk

theorem fill_tableDesc (c : Content) (st : CatCache) (k : Nat) :
    (fill c st).tableDesc k = (st.tableDesc k).or (if k ∈ minTables then
      (c.findTable k).map fun table => { table, schema := systableSchema k } else none) :=
  rfl

theorem fill_of_none {k : Nat} (h : st.tableDesc k = none) :
    (fill c st).tableDesc k = if k ∈ minTables then
      (c.findTable k).map fun table => { table, schema := systableSchema k } else none := by
  rw [fill_tableDesc, h, Option.none_or]

theorem fill_of_minCached (h : MinCached st) : fill c st = st := by
  have hdesc : ∀ k, (st.tableDesc k).or (if k ∈ minTables then
      (c.findTable k).map fun table => { table, schema := systableSchema k } else none) =
        st.tableDesc k := by
    intro k
    by_cases hk : k ∈ minTables
    · obtain ⟨desc, hdesc⟩ := Option.isSome_iff_exists.mp (h k hk)
      rw [hdesc, Option.some_or]
    · rw [if_neg hk, Option.or_none]
  rw [fill, funext hdesc]

theorem emplace_eq_none {κ α : Type} [DecidableEq κ] {m : κ → Option α} {k k' : κ} {a : α}
    (h : emplace m k a k' = none) : k' ≠ k ∧ m k' = none := by
  unfold emplace at h
  split at h
  · rename_i hsome
    refine ⟨?_, h⟩
    rintro rfl
    rw [h] at hsome
    cases hsome
  · rw [Function.update_apply] at h
    split at h
    · cases h
    · rename_i hne
      exact ⟨hne, h⟩

theorem fill_emplace {k : Nat} (hk : k ∈ minTables) {table : SysTableTable}
    (h : st.tableDesc k = none → c.findTable k = some table) :
    fill c { st with tableDesc := emplace st.tableDesc k { table, schema := systableSchema k } } =
      fill c st := by
  have hdesc : ∀ k', (emplace st.tableDesc k { table, schema := systableSchema k } k').or
      (if k' ∈ minTables then
        (c.findTable k').map fun table => { table, schema := systableSchema k' } else none) =
      (fill c st).tableDesc k' := by
    intro k'
    rw [fill_tableDesc, emplace]
    cases hcached : st.tableDesc k with
    | some desc => rw [Option.isSome_some, if_pos rfl]
    | none =>
        rw [Option.isSome_none, if_neg Bool.false_ne_true, Function.update_apply]
        split
        · rename_i heq
          rw [heq, hcached, if_pos hk, h hcached, Option.none_or, Option.some_or]
          rfl
        · rfl
  rw [fill, funext hdesc]
  rfl

theorem loading_new (hs : Stores files c) : Loading builtin files c [] { new with files } := by
  refine ⟨⟨rfl, rfl, rfl, nofun, fun k desc hdesc => ?_, nofun, fun k hk => ?_⟩, nofun⟩
  · rw [fill_of_none rfl] at hdesc
    by_cases hk : k ∈ minTables
    · rw [if_pos hk] at hdesc
      obtain ⟨table, ht, rfl⟩ := Option.map_eq_some_iff.mp hdesc
      exact hs.describes.findTableDesc builtin (mem_systabids_of_min hk) ht
    · rw [if_neg hk] at hdesc
      cases hdesc
  · obtain ⟨table, ht, -⟩ := hs.describes.tables k (mem_systabids_of_min hk)
    rw [fill_of_none rfl, if_pos hk, ht]
    rfl

theorem tables_eq (hs : Stores files c) {f : InmemFile}
    (hf : files.file? (c.fidOf tabTable) = some f) :
    c.tables = (f.recordsFrom 0).map
      fun p => SysTableTable.ofData ((systableSchema tabTable).rowData p.2) := by
  obtain ⟨f', hf', hrows⟩ := hs.holds tabTable (by decide)
  rw [hf] at hf'
  cases hf'
  have hlist := RowKind.table.list_eq hrows
  rw [InmemFile.records_eq, List.map_map (g := RowKind.table.ofData), List.map_map] at hlist
  exact hlist

/-- The row of `Table` that is found first is the one `FindTable` returns. -/
theorem findTable_of_seen (hs : Stores files c) {f : InmemFile}
    (hf : files.file? (c.fidOf tabTable) = some f) {j : Nat} {rec : ByteString}
    {rest : List (Nat × ByteString)} (hsplit : f.recordsFrom 0 = seen ++ (j, rec) :: rest)
    {k : Nat} (hk : k ∈ minTables)
    (hnot : ∀ p ∈ seen,
      (fieldOf ((systableSchema tabTable).rowData p.2) SysTableTable.tabidColid).getUInt 32 ≠ k)
    (hrec : (fieldOf ((systableSchema tabTable).rowData rec) SysTableTable.tabidColid).getUInt 32 =
      k) : c.findTable k = some (.ofData ((systableSchema tabTable).rowData rec)) := by
  have hoid : oidOf k = k := Nat.mod_eq_of_lt (mem_systabids_lt (mem_systabids_of_min hk))
  have hnone : (seen.map fun p => SysTableTable.ofData ((systableSchema tabTable).rowData p.2)).find?
      (fun r => decide (r.tabid = k)) = none := by
    rw [List.find?_eq_none]
    intro r hr
    obtain ⟨p, hp, rfl⟩ := List.mem_map.mp hr
    exact fun heq => hnot p hp (of_decide_eq_true heq)
  rw [Content.findTable, tables_eq hs hf, hsplit, List.map_append, List.find?_append, hoid, hnone,
    Option.none_or, List.map_cons, List.find?_cons_of_pos]
  exact decide_eq_true hrec

theorem loading_scannable (hs : Stores files c) {k : Nat} (hk : k ∈ systabids) {f : InmemFile}
    (hf : files.file? (c.fidOf k) = some f) (hrows : HoldsRows k f (c.rows k))
    (td : Nat → Option TableDesc) :
    Scannable (fun st => Coherent builtin false files c (fill c st) ∧ st.tableDesc = td) k
      (c.fidOf k) (systableSchema k) f := by
  have hscan : Scannable (Coherent builtin false files c) k (c.fidOf k) (systableSchema k) f :=
    hs.scannable hk hf hrows
  exact ⟨hscan.wellFormed, fun st hst => hscan.file (fill c st) hst.1, hscan.decodes,
    fun st hst => hscan.cached (fill c st) hst.1,
    fun st hst j rec row hslot hcreate =>
      ⟨hscan.cacheRow (fill c st) hst.1 j rec row hslot hcreate, hst.2⟩⟩

theorem Loading.loadMinTable (h : Loading builtin files c seen st) (hs : Stores files c)
    {f : InmemFile} (hf : files.file? (c.fidOf tabTable) = some f) {descs : List TableDesc}
    (hdescs : BootstrapCatCache.init builtin = .ok descs) {j : Nat} {rec : ByteString}
    (rest : ByteString) {recs : List (Nat × ByteString)} (hslot : f.slots[j]? = some ⟨true, rec⟩)
    (hsplit : f.recordsFrom 0 = seen ++ (j, rec) :: recs) {k : Nat} (hk : k ∈ minTables)
    (hrec : (fieldOf ((systableSchema tabTable).rowData rec) SysTableTable.tabidColid).getUInt 32 =
      k) :
    ∃ st', loadMinTable descs (systableSchema tabTable) (rec ++ rest) ⟨c.fidOf tabTable, j⟩ k st =
      (.ok (), st') ∧ Loading builtin files c (seen ++ [(j, rec)]) st' := by
  obtain ⟨f', hf', hrows⟩ := hs.holds tabTable (by decide)
  rw [hf] at hf'
  cases hf'
  obtain ⟨data, hdata⟩ := hrows.decodes rec (mem_records hslot)
  have hfields := rowFields_of_dissemble (by decide : tabTable ∈ systabids) hdata
  have hscan : Scannable
      (fun t => Coherent builtin false files c (fill c t) ∧ t.tableDesc = st.tableDesc) tabTable
      (c.fidOf tabTable) (systableSchema tabTable) f :=
    loading_scannable hs (by decide) hf hrows st.tableDesc
  have hentry := getOrCreateCachedEntry_computes hscan false hslot rest
  rw [Schema.rowData_eq hdata, SysTableStruct.create_eq (by decide) hfields.length] at hentry
  rcases hresult : getOrCreateCachedEntry false tabTable ⟨c.fidOf tabTable, j⟩
    (systableSchema tabTable) (rec ++ rest) st with ⟨row?, st₁⟩
  obtain ⟨hval, hcoherent, htd⟩ := hentry st ⟨h.coherent, rfl⟩
  rw [hresult] at hval hcoherent htd
  simp only at hval hcoherent htd
  subst hval
  obtain ⟨old, hold, hschema⟩ := BootstrapCatCache.findTableDesc_init hdescs hk
  have hcast : (SysTableStruct.ofData tabTable data).asTable = .ok (SysTableTable.ofData data) :=
    rfl
  have hrun : CatCache.loadMinTable descs (systableSchema tabTable) (rec ++ rest)
      ⟨c.fidOf tabTable, j⟩ k st = (.ok (), { st₁ with
        tableDesc := emplace st₁.tableDesc k ⟨.ofData data, systableSchema k⟩ }) := by
    rw [CatCache.loadMinTable, bind_of_ok hresult, hcast, bind_of_ok (ofExcept_apply _ _), hold,
      bind_of_ok (ofExcept_apply _ _), hschema]
    rfl
  refine ⟨_, hrun, ?_⟩
  rw [← Schema.rowData_eq hdata]
  have hfirst : st₁.tableDesc k = none →
      c.findTable k = some (.ofData ((systableSchema tabTable).rowData rec)) := by
    rw [htd]
    exact fun hnone => findTable_of_seen hs hf hsplit hk (h.pending k hk hnone) hrec
  refine ⟨?_, fun k' hk' hnone p hp => ?_⟩
  · rw [fill_emplace hk hfirst]
    exact hcoherent
  · obtain ⟨hne, hold'⟩ := emplace_eq_none hnone
    rw [htd] at hold'
    rcases List.mem_append.mp hp with hp | hp
    · exact h.pending k' hk' hold' p hp
    · rw [List.mem_singleton.mp hp, hrec]
      exact hne.symm

theorem loading_keeps (hs : Stores files c) {f : InmemFile}
    (hf : files.file? (c.fidOf tabTable) = some f) {descs : List TableDesc}
    (hdescs : BootstrapCatCache.init builtin = .ok descs) :
    LoadKeeps (Loading builtin files c) (c.fidOf tabTable) f (systableSchema tabTable)
      SysTableTable.tabidColid minTables (loadMinTable descs (systableSchema tabTable)) := by
  obtain ⟨f', hf', hrows⟩ := hs.holds tabTable (by decide)
  rw [hf] at hf'
  cases hf'
  refine ⟨hs.wellFormed.file hf, fun seen st hst => ?_, hrows.decodes, by decide +kernel, ?_, ?_⟩
  · have := hst.coherent.files_eq
    rw [← hf, ← this]
    rfl
  · intro seen st j rec hst hnot
    refine ⟨hst.coherent, fun k hk hnone p hp => ?_⟩
    rcases List.mem_append.mp hp with hp | hp
    · exact hst.pending k hk hnone p hp
    · rw [List.mem_singleton.mp hp]
      rintro rfl
      exact hnot hk
  · intro seen st j rec rest hst hslot hsplit hmem
    exact hst.loadMinTable hs hf hdescs rest hslot hsplit hmem rfl

theorem coherent_keeps (hs : Stores files c) {f : InmemFile}
    (hf : files.file? (c.fidOf tabType) = some f) (oids : List Nat) :
    LoadKeeps (fun _ => Coherent builtin false files c) (c.fidOf tabType) f (systableSchema tabType)
      SysTableType.typidColid oids (fun buf recid _ => do
        let _ ← getOrCreateCachedEntry false tabType recid (systableSchema tabType) buf) := by
  obtain ⟨f', hf', hrows⟩ := hs.holds tabType (by decide)
  rw [hf] at hf'
  cases hf'
  have hscan : Scannable (Coherent builtin false files c) tabType (c.fidOf tabType)
      (systableSchema tabType) f := hs.scannable (by decide) hf hrows
  refine ⟨hs.wellFormed.file hf, fun _ st hst => hscan.file st hst, hrows.decodes,
    by decide +kernel, fun _ _ _ _ hst _ => hst, ?_⟩
  intro _ st j rec rest hst hslot _ _
  obtain ⟨data, hdata⟩ := hrows.decodes rec (mem_records hslot)
  have hfields := rowFields_of_dissemble (by decide : tabType ∈ systabids) hdata
  have hentry := getOrCreateCachedEntry_computes hscan false hslot rest
  rw [Schema.rowData_eq hdata, SysTableStruct.create_eq (by decide) hfields.length] at hentry
  obtain ⟨hval, hst'⟩ := hentry st hst
  exact ⟨_, bind_of_ok (Prod.ext hval rfl) _, hst'⟩

/-- All descriptors are loaded when `Table` has not more rows for these systables than that. -/
theorem Loading.minCached (hs : Stores files c) {f : InmemFile}
    (hf : files.file? (c.fidOf tabTable) = some f) (h : Loading builtin files c seen st)
    (hall : ∀ p ∈ f.recordsFrom 0, recordOid (systableSchema tabTable) SysTableTable.tabidColid p ∈
      minTables → p ∈ seen) : MinCached st := by
  intro k hk
  obtain ⟨table, ht, -⟩ := hs.describes.tables k (mem_systabids_of_min hk)
  have hmem := List.mem_of_find?_eq_some ht
  have htabid := List.find?_some ht
  simp only [decide_eq_true_eq] at htabid
  rw [oidOf, Nat.mod_eq_of_lt (mem_systabids_lt (mem_systabids_of_min hk))] at htabid
  rw [tables_eq hs hf] at hmem
  obtain ⟨p, hp, rfl⟩ := List.mem_map.mp hmem
  have hoid : recordOid (systableSchema tabTable) SysTableTable.tabidColid p = k := htabid
  by_contra hnone
  rw [Option.not_isSome_iff_eq_none] at hnone
  exact h.pending k hk hnone p (hall p hp (hoid ▸ hk)) hoid

/-- `LoadMinCache` returns when the descriptors are loaded, and the cache agrees with the content
of the files then. -/
theorem loadMinCache_cases (hcmp : builtin.Compares) (hs : Stores files c) {page : DBMeta}
    (hpage : files.dbmetaPage = some page) (hmagic : page.magic = dbmetaMagic)
    (hroot : page.systableTableFid = c.fidOf tabTable)
    {descs : List TableDesc} (hdescs : BootstrapCatCache.init builtin = .ok descs) (n : Nat) :
    (∃ st', loadMinCache builtin (findTableDesc builtin (n + 1)) descs { new with files } =
        (.ok (), st') ∧ Coherent builtin true files c st') ∨
      ¬ c.MinTablesOnce ∧ ∃ e st',
        loadMinCache builtin (findTableDesc builtin (n + 1)) descs { new with files } =
          (.error e, st') := by
  obtain ⟨f, hf, -⟩ := hs.holds tabTable (by decide)
  obtain ⟨g, hg, -⟩ := hs.holds tabType (by decide)
  have hopen : onFiles (openCatalogFile dbmetaFid) { new with files } =
      (.ok dbmetaFid, { new with files }) := by
    rw [onFiles, openCatalogFile, bind_of_ok (getState_apply _),
      if_neg (by unfold invalidFid dbmetaFid; omega)]
    rfl
  have hread : readTableFid { new with files } = (.ok (c.fidOf tabTable), { new with files }) := by
    rw [readTableFid, bind_of_ok hopen, bind_of_ok (getState_apply _), hpage]
    dsimp only
    rw [if_neg (not_not_intro hmagic), hroot]
    rfl
  obtain ⟨desc, hdesc, hschema⟩ := BootstrapCatCache.findTableDesc_init hdescs
    (by decide : tabTable ∈ minTables)
  obtain ⟨seen, st₂, hload, hst₂, hall⟩ :=
    loadMinFile_keeps (loading_keeps hs hf hdescs) 3 (loading_new hs)
  have hinit : st₂.initialized = false := hst₂.coherent.initialized
  rw [loadMinCache, bind_of_ok hread, hdesc, bind_of_ok (ofExcept_apply _ _), hschema]
  have hload' : loadMinFile (c.fidOf tabTable) (systableSchema tabTable) SysTableTable.tabidColid
      [tabTable, tabType, tabColumn] 3 (CatCache.loadMinTable descs (systableSchema tabTable))
        { new with files } = (.ok (), st₂) := hload
  rw [bind_of_ok hload']
  rcases htypids : minTypids (findTableDesc builtin (n + 1)) [tabTable, tabType, tabColumn] st₂
    with ⟨e | typids, st₃⟩
  · -- a descriptor is missing
    rw [bind_of_error htypids]
    refine Or.inr ⟨fun honce => ?_, e, st₃, rfl⟩
    have hcount : (f.recordsFrom 0).countP (fun p => recordOid (systableSchema tabTable)
        SysTableTable.tabidColid p ∈ minTables) ≤ 3 := by
      rw [Content.MinTablesOnce, tables_eq hs hf, List.countP_map] at honce
      exact honce
    obtain ⟨typids, hok⟩ : ∃ typids, minTypids (findTableDesc builtin (n + 1))
        [tabTable, tabType, tabColumn] st₂ = (.ok typids, st₂) :=
      minTypids_of_cached (hst₂.minCached hs hf (hall hcount))
    rw [htypids] at hok
    cases hok
  · rw [bind_of_ok htypids]
    obtain ⟨rfl, hmin⟩ := minTypids_ok hinit htypids
    have hcoherent := hst₂.coherent
    rw [fill_of_minCached hmin] at hcoherent
    have hfind := findTable_computes hcmp hs (answers_cached hs n (by decide)) tabType _ hcoherent
    rcases htable : findTable builtin (findTableDesc builtin (n + 1)) tabType st₃ with ⟨table?, st₄⟩
    rw [htable] at hfind
    obtain ⟨hval, hst₄⟩ := hfind
    obtain ⟨table, ht, -⟩ := hs.describes.tables tabType (by decide)
    rw [ht] at hval
    dsimp only at hval hst₄
    subst hval
    obtain ⟨typedesc, htypedesc, htypeschema⟩ := BootstrapCatCache.findTableDesc_init hdescs
      (by decide : tabType ∈ minTables)
    have htabfid : table.tabfid = c.fidOf tabType := by
      rw [Content.fidOf, ht]
      rfl
    obtain ⟨seen', st₅, hloadtypes, hst₅, -⟩ :=
      loadMinFile_keeps (coherent_keeps hs hg typids.dedup) typids.dedup.length hst₄
    rw [bind_of_ok htable]
    dsimp only
    rw [htypedesc, bind_of_ok (ofExcept_apply _ _), htypeschema, htabfid, bind_of_ok hloadtypes]
    exact Or.inl ⟨_, rfl, hst₅.files_eq, rfl, hst₅.useIndex, hst₅.cachedRows, hst₅.cachedTables,
      hst₅.cachedIndexes, hst₅.minCached⟩

/-- When `LoadMinCache` returns, the cache agrees with the content of the files. -/
theorem loadMinCache_coherent (hcmp : builtin.Compares) (hs : Stores files c) {page : DBMeta}
    (hpage : files.dbmetaPage = some page) (hmagic : page.magic = dbmetaMagic)
    (hroot : page.systableTableFid = c.fidOf tabTable)
    {descs : List TableDesc} (hdescs : BootstrapCatCache.init builtin = .ok descs) {n : Nat}
    (hrun : loadMinCache builtin (findTableDesc builtin (n + 1)) descs { new with files } =
      (.ok (), st')) : Coherent builtin true files c st' := by
  rcases loadMinCache_cases hcmp hs hpage hmagic hroot hdescs n with
    ⟨st'', hok, hst''⟩ | ⟨-, e, st'', herr⟩
  · rw [hrun] at hok
    obtain ⟨-, rfl⟩ := Prod.mk.inj hok
    exact hst''
  · rw [hrun] at herr
    cases herr

end

end CatCache

end Taco
