import TacoDB.Catalog.FileHistory
import TacoDB.Catalog.Lookups

/-!
# Rows that are added to the catalog

`Holding` says that the catalog cache is complete and that its files hold a content. An
append to the file of a systable adds a row to the content, and the cache stays coherent:
the records that are there keep their places, and what could be made of the rows before can
be made of them now. `InsertCatalogEntries` inserts its rows one after another until there
is one that has no payload or finds the file full, so after an error the rows in front of
that one are there.
-/

namespace Taco

open Eff Initoids SlotHeap Buffer

/-- The catalog cache is complete and its files hold the content. -/
structure Holding (builtin : BuiltinTable) (c : Content) (st : CatCache) : Prop where
  stores : Stores st.files c
  coherent : Coherent builtin true st.files c st

namespace Content

variable {c c' : Content}

/-- Rows that do not belong to a systable describe nothing else. -/
theorem Describes.of_le (h : c.Describes) (hle : c.Le c')
    (hcols : ∀ k ∈ systabids, c'.columnsOf k = c.columnsOf k) : c'.Describes := by
  have htables : ∀ k ∈ systabids, ∃ table, c.findTable k = some table ∧
      c'.findTable k = some table ∧ table.tabncols = (systableColumnsOf k).length := by
    intro k hk
    obtain ⟨table, ht, hncols⟩ := h.tables k hk
    exact ⟨table, ht, findTable_of_le hle ht, hncols⟩
  have hfid : ∀ k ∈ systabids, c'.fidOf k = c.fidOf k := by
    intro k hk
    obtain ⟨table, ht, ht', -⟩ := htables k hk
    rw [fidOf, fidOf, ht, ht']
  refine ⟨fun k hk => ?_, fun k hk k' hk' heq => ?_, fun k hk => ?_, hle.types.trans h.types⟩
  · obtain ⟨table, -, ht', hncols⟩ := htables k hk
    exact ⟨table, ht', hncols⟩
  · rw [hfid k hk, hfid k' hk'] at heq
    exact h.fids k hk k' hk' heq
  · rw [hcols k hk, h.columns k hk]

theorem fidOf_of_le (h : c.Describes) (hle : c.Le c') {k : Nat} (hk : k ∈ systabids) :
    c'.fidOf k = c.fidOf k := by
  obtain ⟨table, ht, -⟩ := h.tables k hk
  rw [fidOf, fidOf, ht, findTable_of_le hle ht]

end Content

/-- A kind of rows that are added to the catalog: their datums, what is stored of them, and
the object identifier of the table or index they are about. -/
structure InsertKind (α : Type) extends RowKind α where
  vector : α → List Datum
  stored : α → α
  oid : α → Nat
  push : Content → List α → Content
  rowData : ∀ a, Schema.RowData (systableSchema systabid) (vector a)
  ofData_decoded : ∀ a, ofData ((systableSchema systabid).decoded (vector a)) = stored a
  oid_stored : ∀ a, oid (stored a) = oidOf (oid a)
  list_push : ∀ c l, list (push c l) = list c ++ l
  rows_push : ∀ (c : Content) l, ∀ k ∈ systabids, k ≠ systabid → (push c l).rows k = c.rows k
  le_push : ∀ (c : Content) l, c.Le (push c l)
  push_nil : ∀ c, push c [] = c
  push_append : ∀ c l l', push (push c l) l' = push c (l ++ l')
  columnsOf_push : ∀ (c : Content) l k, (∀ a ∈ l, oid a ≠ oidOf k) → (push c l).columnsOf k = c.columnsOf k
  issued_push : ∀ (c : Content) l next, c.Issued next → (∀ a ∈ l, oid a < next) → (push c l).Issued next

namespace InsertKind

theorem filter_append_none {α : Type} {p : α → Bool} {l l' : List α} (h : ∀ a ∈ l', p a = false) :
    (l ++ l').filter p = l.filter p := by
  have hnil : l'.filter p = [] := List.filter_eq_nil_iff.mpr fun a ha => by simp [h a ha]
  rw [List.filter_append, hnil, List.append_nil]

theorem forall_mem_append {α : Type} {p : α → Prop} {l l' : List α} (h : ∀ a ∈ l, p a)
    (h' : ∀ a ∈ l', p a) : ∀ a ∈ l ++ l', p a := by
  intro a ha
  rcases List.mem_append.mp ha with ha | ha
  · exact h a ha
  · exact h' a ha

theorem length_fields_systable {systabid n : Nat} (h : systabid ∈ systabids)
    (hn : (systableColumnsOf systabid).length = n) :
    (systableSchema systabid).fields.length = n := by
  have hall : ∀ k ∈ systabids, (systableSchema k).fields.length = (systableColumnsOf k).length := by
    decide +kernel
  rw [hall systabid h, hn]

theorem systabids_cases {k : Nat} (h : k ∈ systabids) :
    k = tabTable ∨ k = tabType ∨ k = tabColumn ∨ k = tabFunction ∨ k = tabFunctionArgs ∨
      k = tabOperator ∨ k = tabIndex ∨ k = tabIndexColumn := by
  revert k
  decide

def table : InsertKind SysTableTable where
  toRowKind := RowKind.table
  vector := SysTableTable.getDatumVector
  stored := SysTableTable.stored
  oid := (·.tabid)
  push := fun c l => { c with tables := c.tables ++ l }
  rowData := fun a => ⟨(length_fields_systable (n := 6) (by decide) (by decide)).symm, by
    simp [SysTableTable.getDatumVector, Datum.isnull, Datum.ofInt, Datum.ofBool,
      Datum.fromVarlenBytes]⟩
  ofData_decoded := SysTableTable.ofData_decoded
  oid_stored := fun _ => rfl
  list_push := fun _ _ => rfl
  rows_push := fun _ _ _ hk hne => by
    rcases systabids_cases hk with rfl | rfl | rfl | rfl | rfl | rfl | rfl | rfl
    all_goals first | rfl | exact absurd rfl hne
  le_push := fun c l => by constructor <;> simp
  push_nil := fun c => by simp
  push_append := fun c l l' => by simp
  columnsOf_push := fun _ _ _ _ => rfl
  issued_push := fun _ _ _ h hl =>
    ⟨forall_mem_append h.tables hl, h.columns, h.indexes, h.indexColumns⟩

def column : InsertKind SysTableColumn where
  toRowKind := RowKind.column
  vector := SysTableColumn.getDatumVector
  stored := SysTableColumn.stored
  oid := (·.coltabid)
  push := fun c l => { c with columns := c.columns ++ l }
  rowData := fun a => ⟨(length_fields_systable (n := 7) (by decide) (by decide)).symm, by
    simp [SysTableColumn.getDatumVector, Datum.isnull, Datum.ofInt, Datum.ofBool,
      Datum.fromVarlenBytes]⟩
  ofData_decoded := SysTableColumn.ofData_decoded
  oid_stored := fun _ => rfl
  list_push := fun _ _ => rfl
  rows_push := fun _ _ _ hk hne => by
    rcases systabids_cases hk with rfl | rfl | rfl | rfl | rfl | rfl | rfl | rfl
    all_goals first | rfl | exact absurd rfl hne
  le_push := fun c l => by constructor <;> simp
  push_nil := fun c => by simp
  push_append := fun c l l' => by simp
  columnsOf_push := fun _ _ _ hl => filter_append_none fun a ha => decide_eq_false (hl a ha)
  issued_push := fun _ _ _ h hl =>
    ⟨h.tables, forall_mem_append h.columns hl, h.indexes, h.indexColumns⟩

def index : InsertKind SysTableIndex where
  toRowKind := RowKind.index
  vector := SysTableIndex.getDatumVector
  stored := SysTableIndex.stored
  oid := (·.idxid)
  push := fun c l => { c with indexes := c.indexes ++ l }
  rowData := fun a => ⟨(length_fields_systable (n := 7) (by decide) (by decide)).symm, by
    simp [SysTableIndex.getDatumVector, Datum.isnull, Datum.ofInt, Datum.ofBool,
      Datum.fromVarlenBytes]⟩
  ofData_decoded := SysTableIndex.ofData_decoded
  oid_stored := fun _ => rfl
  list_push := fun _ _ => rfl
  rows_push := fun _ _ _ hk hne => by
    rcases systabids_cases hk with rfl | rfl | rfl | rfl | rfl | rfl | rfl | rfl
    all_goals first | rfl | exact absurd rfl hne
  le_push := fun c l => by constructor <;> simp
  push_nil := fun c => by simp
  push_append := fun c l l' => by simp
  columnsOf_push := fun _ _ _ _ => rfl
  issued_push := fun _ _ _ h hl =>
    ⟨h.tables, h.columns, forall_mem_append h.indexes hl, h.indexColumns⟩

def indexColumn : InsertKind SysTableIndexColumn where
  toRowKind := RowKind.indexColumn
  vector := SysTableIndexColumn.getDatumVector
  stored := SysTableIndexColumn.stored
  oid := (·.idxcolidxid)
  push := fun c l => { c with indexColumns := c.indexColumns ++ l }
  rowData := fun a => ⟨(length_fields_systable (n := 8) (by decide) (by decide)).symm, by
    simp [SysTableIndexColumn.getDatumVector, Datum.isnull, Datum.ofInt, Datum.ofBool]⟩
  ofData_decoded := SysTableIndexColumn.ofData_decoded
  oid_stored := fun _ => rfl
  list_push := fun _ _ => rfl
  rows_push := fun _ _ _ hk hne => by
    rcases systabids_cases hk with rfl | rfl | rfl | rfl | rfl | rfl | rfl | rfl
    all_goals first | rfl | exact absurd rfl hne
  le_push := fun c l => by constructor <;> simp
  push_nil := fun c => by simp
  push_append := fun c l l' => by simp
  columnsOf_push := fun _ _ _ _ => rfl
  issued_push := fun _ _ _ h hl =>
    ⟨h.tables, h.columns, h.indexes, forall_mem_append h.indexColumns hl⟩

end InsertKind

namespace InmemFile

variable {f : InmemFile} {bytes : ByteString}

theorem WellFormed.slots_push_aligned (h : f.WellFormed) (hdvd : 8 ∣ bytes.length)
    (hlen : bytes.length ≤ 32767) : (f.push bytes).slots = f.slots ++ [⟨true, bytes⟩] := by
  rw [h.slots_push bytes hlen, show (bytes.length + 7) / 8 * 8 = bytes.length by omega, resize,
    List.take_length, Nat.sub_self, List.replicate_zero, List.append_nil]

theorem WellFormed.records_push (h : f.WellFormed) (hdvd : 8 ∣ bytes.length)
    (hlen : bytes.length ≤ 32767) : (f.push bytes).records = f.records ++ [bytes] := by
  rw [records, records, h.slots_push_aligned hdvd hlen, List.filter_append, List.map_append]
  rfl

end InmemFile

/-- The number of records of a file, those out of use included. -/
def VolatileFiles.recordCount (files : VolatileFiles) (fid : Nat) : Nat :=
  (files.file? fid).elim 0 (·.offsets.length)

section Push

variable {builtin : BuiltinTable} {c : Content} {st : CatCache} {files : VolatileFiles} {α : Type}
  {kind : InsertKind α} {fid : Nat} {f : InmemFile} {a : α} {bytes : ByteString}

def Fresh (files : VolatileFiles) (oid : Nat) : Prop :=
  maxSysOid < oid ∧ ∀ page, files.dbmetaPage = some page → oid < page.nextOid

theorem Stores.oidOf_fresh (h : Stores files c) {oid : Nat} (hfresh : Fresh files oid) :
    oidOf oid = oid := by
  obtain ⟨page, hpage, -, hmax, -⟩ := h.next
  have hlt := hfresh.2 page hpage
  exact Nat.mod_eq_of_lt (by unfold maxOid at hmax; omega)

theorem Fresh.ne_systabid {oid k : Nat} (h : Fresh files oid) (hk : k ∈ systabids) :
    oid ≠ oidOf k := by
  have hle : ∀ k ∈ systabids, oidOf k ≤ maxSysOid := by decide
  have := hle k hk
  have := h.1
  omega

theorem Stores.describes_push (h : Stores files c) (hfresh : Fresh files (kind.oid a)) :
    (kind.push c [kind.stored a]).Describes := by
  refine h.describes.of_le (kind.le_push c _) fun k hk => kind.columnsOf_push c _ k fun b hb => ?_
  rw [List.mem_singleton.mp hb, kind.oid_stored, h.oidOf_fresh hfresh]
  exact hfresh.ne_systabid hk

theorem HoldsRows.push {rows : List SysTableStruct} (h : HoldsRows kind.systabid f rows)
    (hwf : f.WellFormed) (hdvd : 8 ∣ bytes.length) (hlen : bytes.length ≤ 32767)
    (hdata : (systableSchema kind.systabid).dissemblePayload bytes =
      .ok ((systableSchema kind.systabid).decoded (kind.vector a))) :
    HoldsRows kind.systabid (f.push bytes) (rows ++ [kind.wrap (kind.stored a)]) := by
  have hrecords := hwf.records_push hdvd hlen
  constructor
  · intro rec hrec
    rw [hrecords, List.mem_append, List.mem_singleton] at hrec
    rcases hrec with hrec | rfl
    · exact h.decodes rec hrec
    · exact ⟨_, hdata⟩
  · rw [hrecords, List.map_append, h.rows_eq, List.map_singleton, Schema.rowData_eq hdata,
      kind.wrap_ofData, kind.ofData_decoded]

theorem Stores.push (h : Stores files c) (hf : files.file? (c.fidOf kind.systabid) = some f)
    (hdvd : 8 ∣ bytes.length) (hlen : bytes.length ≤ 32767) (hroom : f.offsets.length < 65534)
    (hdata : (systableSchema kind.systabid).dissemblePayload bytes =
      .ok ((systableSchema kind.systabid).decoded (kind.vector a)))
    (hfresh : Fresh files (kind.oid a)) :
    Stores (files.setFile (c.fidOf kind.systabid) (f.push bytes))
      (kind.push c [kind.stored a]) := by
  have hwf := h.wellFormed.file hf
  have hle := kind.le_push c [kind.stored a]
  refine ⟨h.wellFormed.setFile (hwf.push hlen hroom) _, h.describes_push hfresh, ?_, ?_⟩
  · intro k hk
    obtain ⟨g, hg, hrows⟩ := h.holds k hk
    rw [Content.fidOf_of_le h.describes hle hk]
    by_cases heq : k = kind.systabid
    · subst heq
      rw [hf] at hg
      cases hg
      refine ⟨_, VolatileFiles.file?_setFile_self hf _, ?_⟩
      rw [kind.rows_eq, kind.list_push, List.map_append, ← kind.rows_eq]
      exact hrows.push hwf hdvd hlen hdata
    · have hfid : c.fidOf kind.systabid ≠ c.fidOf k := fun hfid =>
        heq (h.describes.fids _ kind.mem k hk hfid).symm
      refine ⟨g, ?_, ?_⟩
      · rw [VolatileFiles.file?_setFile_of_ne hf hfid, hg]
      · rw [kind.rows_push c _ k hk heq]
        exact hrows
  · obtain ⟨page, hpage, hsys, hmax, hissued⟩ := h.next
    refine ⟨page, hpage, hsys, hmax, kind.issued_push c _ _ hissued fun b hb => ?_⟩
    rw [List.mem_singleton.mp hb, kind.oid_stored, h.oidOf_fresh hfresh]
    exact hfresh.2 page hpage

theorem Coherent.push (h : Coherent builtin true files c st) (hs : Stores files c)
    (hf : files.file? (c.fidOf kind.systabid) = some f) (hdvd : 8 ∣ bytes.length)
    (hlen : bytes.length ≤ 32767) (l : List α) :
    Coherent builtin true (files.setFile (c.fidOf kind.systabid) (f.push bytes)) (kind.push c l)
      { st with files := files.setFile (c.fidOf kind.systabid) (f.push bytes) } where
  files_eq := rfl
  initialized := h.initialized
  useIndex := h.useIndex
  cachedRows := by
    intro k hk g hg j row hrow
    rw [Content.fidOf_of_le hs.describes (kind.le_push c l) hk] at hg hrow
    by_cases heq : k = kind.systabid
    · subst heq
      rw [VolatileFiles.file?_setFile_self hf] at hg
      cases hg
      obtain ⟨rec, hslot, hcreate⟩ := h.cachedRows _ hk f hf j row hrow
      refine ⟨rec, ?_, hcreate⟩
      rw [(hs.wellFormed.file hf).slots_push_aligned hdvd hlen,
        List.getElem?_append_left (List.getElem?_eq_some_iff.mp hslot).1, hslot]
    · obtain ⟨g', hg', -⟩ := hs.holds k hk
      have hfid : c.fidOf kind.systabid ≠ c.fidOf k := fun hfid =>
        heq (hs.describes.fids _ kind.mem k hk hfid).symm
      rw [VolatileFiles.file?_setFile_of_ne hf hfid] at hg
      exact h.cachedRows k hk g hg j row hrow
  cachedTables := fun tabid desc hcached =>
    Content.findTableDesc_of_le (kind.le_push c l) (h.cachedTables tabid desc hcached)
  cachedIndexes := fun idxid desc hcached =>
    Content.findIndexDesc_of_le (kind.le_push c l) (h.cachedIndexes idxid desc hcached)
  minCached := h.minCached

theorem recordCount_eq (hf : files.file? fid = some f) :
    files.recordCount fid = f.offsets.length := by
  rw [VolatileFiles.recordCount, hf]
  rfl

theorem content_ofBuffer (hlen : bytes.length ≤ 32767) :
    (Record.ofBuffer bytes).content = .ok bytes := by
  have hlength : (Record.ofBuffer bytes).length = bytes.length :=
    toFieldOffset_of_mem (by omega) (by omega)
  have hdata : (Record.ofBuffer bytes).data = bytes := rfl
  have hload : Datum.load bytes (0 : Nat) bytes.length = .ok (slice bytes 0 bytes.length) :=
    Datum.load_of_le (by omega)
  rw [Record.content, hlength, hdata, if_neg (by omega), Int.toNat_natCast]
  rw [slice, List.drop_zero, List.take_length] at hload
  exact hload

end Push

section Rows

variable {builtin : BuiltinTable} {α : Type} (kind : InsertKind α)

def Fits (c : Content) (files : VolatileFiles) (i : Nat) (a : α) : Prop :=
  Schema.NameFits (systableSchema kind.systabid) (nameColumn kind.systabid) (kind.vector a) ∧
    files.recordCount (c.fidOf kind.systabid) + i < 65534

def AllFit (c : Content) (files : VolatileFiles) (i : Nat) (l : List α) : Prop :=
  ∀ j a, l[j]? = some a → Fits kind c files (i + j) a

/-- The files of the systables have no other records than their rows. -/
def Compact (c : Content) (files : VolatileFiles) : Prop :=
  ∀ k ∈ systabids, files.recordCount (c.fidOf k) = (c.rows k).length

structure Inserted (builtin : BuiltinTable) (c : Content) (st : CatCache) (l : List α)
    (st' : CatCache) : Prop where
  holding : Holding builtin (kind.push c (l.map kind.stored)) st'
  page : st'.files.dbmetaPage = st.files.dbmetaPage
  count : st'.files.recordCount (c.fidOf kind.systabid) =
    st.files.recordCount (c.fidOf kind.systabid) + l.length
  others : ∀ fid, fid ≠ c.fidOf kind.systabid → st'.files.file? fid = st.files.file? fid
  unchanged : l = [] → st'.files = st.files

variable {kind} {c : Content} {st st' st'' : CatCache} {l l' : List α}

theorem Inserted.none (h : Holding builtin c st) : Inserted kind builtin c st [] st := by
  refine ⟨?_, rfl, rfl, fun _ _ => rfl, fun _ => rfl⟩
  rw [List.map_nil, kind.push_nil]
  exact h

theorem Inserted.append (hc : c.Describes) (h : Inserted kind builtin c st l st')
    (h' : Inserted kind builtin (kind.push c (l.map kind.stored)) st' l' st'') :
    Inserted kind builtin c st (l ++ l') st'' := by
  have hfid : ∀ k ∈ systabids, (kind.push c (l.map kind.stored)).fidOf k = c.fidOf k :=
    fun k hk => Content.fidOf_of_le hc (kind.le_push c _) hk
  refine ⟨?_, h'.page.trans h.page, ?_, fun fid hne => ?_, fun hnil => ?_⟩
  · rw [List.map_append, ← kind.push_append]
    exact h'.holding
  · have hcount := h'.count
    rw [hfid _ kind.mem] at hcount
    rw [hcount, h.count, List.length_append, Nat.add_assoc]
  · refine (h'.others fid ?_).trans (h.others fid hne)
    rw [hfid _ kind.mem]
    exact hne
  · obtain ⟨hl, hl'⟩ := List.append_eq_nil_iff.mp hnil
    exact (h'.unchanged hl').trans (h.unchanged hl)

theorem Inserted.compact (hc : c.Describes) (h : Inserted kind builtin c st l st')
    (hcompact : Compact c st.files) : Compact (kind.push c (l.map kind.stored)) st'.files := by
  intro k hk
  rw [Content.fidOf_of_le hc (kind.le_push c _) hk]
  by_cases hself : k = kind.systabid
  · subst hself
    rw [h.count, hcompact _ hk, kind.rows_eq, kind.rows_eq, kind.list_push, List.length_map,
      List.length_map, List.length_append, List.length_map]
  · have hfile := h.others (c.fidOf k) fun hfid => hself (hc.fids k hk _ kind.mem hfid)
    rw [kind.rows_push c _ k hk hself, ← hcompact k hk, VolatileFiles.recordCount, hfile]
    rfl

theorem Inserted.fits_iff (hc : c.Describes) (h : Inserted kind builtin c st l st') (i : Nat)
    (a : α) : Fits kind (kind.push c (l.map kind.stored)) st'.files i a ↔
      Fits kind c st.files (l.length + i) a := by
  rw [Fits, Fits, Content.fidOf_of_le hc (kind.le_push c _) kind.mem, h.count, Nat.add_assoc]

namespace CatCache

theorem insertRows_cons (desc : TableDesc) (fh : Nat) (data : List Datum)
    (rest : List (List Datum)) :
    insertRows desc fh (data :: rest) =
      (Eff.ofExcept (rowPayload desc data) >>= fun recbuf =>
        onFiles (appendRecord fh (.ofBuffer recbuf)) >>= fun _ => insertRows desc fh rest) := rfl

theorem insertRow_spec (h : Holding builtin c st) {desc : TableDesc}
    (hdesc : desc.schema = systableSchema kind.systabid) {a : α}
    (hfresh : Fresh st.files (kind.oid a)) (rest : List (List Datum)) :
    (Fits kind c st.files 0 a ∧ ∃ st', Inserted kind builtin c st [a] st' ∧
      insertRows desc (c.fidOf kind.systabid) (kind.vector a :: rest) st =
        insertRows desc (c.fidOf kind.systabid) rest st') ∨
    (¬ Fits kind c st.files 0 a ∧ ∃ e,
      insertRows desc (c.fidOf kind.systabid) (kind.vector a :: rest) st = (.error e, st)) := by
  obtain ⟨f, hf, -⟩ := h.stores.holds kind.systabid kind.mem
  have hcount := recordCount_eq hf
  have hschema := rowSchema_systable kind.mem
  have hdata := kind.rowData a
  rw [← hdesc] at hschema hdata
  rw [insertRows_cons]
  by_cases hname : Schema.NameFits (systableSchema kind.systabid) (nameColumn kind.systabid)
      (kind.vector a)
  · have hname' := hname
    rw [← hdesc] at hname'
    obtain ⟨buf, hbuf, hdvd, hlen, hdecode⟩ := Schema.rowPayload_ok hschema hdata hname'
    rw [hbuf, bind_of_ok (ofExcept_apply _ _)]
    by_cases hroom : f.offsets.length < 65534
    · refine Or.inl ⟨⟨hname, by rw [hcount]; exact hroom⟩,
        { st with files := st.files.setFile (c.fidOf kind.systabid) (f.push buf) }, ?_, ?_⟩
      · rw [hdesc] at hdecode
        refine ⟨⟨h.stores.push hf hdvd hlen hroom hdecode hfresh,
          h.coherent.push h.stores hf hdvd hlen _⟩, rfl, ?_, fun fid hne => ?_, nofun⟩
        · rw [recordCount_eq (VolatileFiles.file?_setFile_self hf _), hcount]
          exact List.length_append
        · exact VolatileFiles.file?_setFile_of_ne hf (fun hfid => hne hfid.symm) _
      · have happend := appendRecord_eq hf (h.stores.wellFormed.file hf) hroom
          (content_ofBuffer hlen) hlen
        have hrun : onFiles (appendRecord (c.fidOf kind.systabid) (.ofBuffer buf)) st =
            (.ok ⟨c.fidOf kind.systabid, f.offsets.length % 2 ^ 16⟩,
              { st with files := st.files.setFile (c.fidOf kind.systabid) (f.push buf) }) := by
          rw [onFiles, happend]
        exact bind_of_ok hrun _
    · obtain ⟨e, happend⟩ : ∃ e, appendRecord (c.fidOf kind.systabid) (.ofBuffer buf) st.files =
          (.error e, st.files) := appendRecord_full hf (Nat.not_lt.mp hroom)
      have hrun : onFiles (appendRecord (c.fidOf kind.systabid) (.ofBuffer buf)) st =
          (.error e, st) := by
        rw [onFiles, happend]
      refine Or.inr ⟨fun hfits => hroom ?_, e, bind_of_error hrun _⟩
      rw [← hcount]
      exact hfits.2
  · rw [← hdesc] at hname
    obtain ⟨e, he⟩ := Schema.rowPayload_long hschema hdata hname
    refine Or.inr ⟨fun hfits => hname ?_, e, ?_⟩
    · rw [hdesc]
      exact hfits.1
    · rw [he]
      rfl

theorem insertRows_spec (h : Holding builtin c st) {desc : TableDesc}
    (hdesc : desc.schema = systableSchema kind.systabid)
    (hfresh : ∀ a ∈ l, Fresh st.files (kind.oid a)) :
    (AllFit kind c st.files 0 l ∧ ∃ st', Inserted kind builtin c st l st' ∧
      insertRows desc (c.fidOf kind.systabid) (l.map kind.vector) st = (.ok (), st')) ∨
    ∃ l₁ a l₂, l = l₁ ++ a :: l₂ ∧ AllFit kind c st.files 0 l₁ ∧
      ¬ Fits kind c st.files l₁.length a ∧ ∃ e st', Inserted kind builtin c st l₁ st' ∧
        insertRows desc (c.fidOf kind.systabid) (l.map kind.vector) st = (.error e, st') := by
  induction l generalizing c st with
  | nil => exact Or.inl ⟨nofun, st, .none h, rfl⟩
  | cons a l ih =>
      have hcons : ∀ l₁ : List α, Fits kind c st.files 0 a →
          AllFit kind c st.files 1 l₁ → AllFit kind c st.files 0 (a :: l₁) := by
        intro l₁ ha hl₁ j b hb
        cases j with
        | zero =>
            cases hb
            exact ha
        | succ j =>
            rw [Nat.zero_add, Nat.add_comm]
            exact hl₁ j b hb
      rw [List.map_cons]
      rcases insertRow_spec h hdesc (hfresh a List.mem_cons_self) (l.map kind.vector) with
        ⟨hfits, st₁, hst₁, hrun⟩ | ⟨hfits, e, hrun⟩
      · have hc := h.stores.describes
        have hfid := Content.fidOf_of_le hc (kind.le_push c ([a].map kind.stored)) kind.mem
        have hshift : ∀ l₁, AllFit kind (kind.push c ([a].map kind.stored)) st₁.files 0 l₁ →
            AllFit kind c st.files 1 l₁ :=
          fun l₁ hl₁ j b hb => by
            have := (hst₁.fits_iff hc _ b).mp (hl₁ j b hb)
            rw [Nat.zero_add] at this
            exact this
        have hfresh' : ∀ b ∈ l, Fresh st₁.files (kind.oid b) := by
          intro b hb
          have := hfresh b (List.mem_cons_of_mem a hb)
          rwa [Fresh, ← hst₁.page] at this
        rw [hrun]
        have hrest := ih hst₁.holding hfresh'
        rw [hfid] at hrest
        rcases hrest with ⟨hall, st', hst', hok⟩ | ⟨l₁, b, l₂, rfl, hall, hnot, e, st', hst', herr⟩
        · exact Or.inl ⟨hcons l hfits (hshift l hall), st', .append hc hst₁ hst', hok⟩
        · refine Or.inr ⟨a :: l₁, b, l₂, rfl, hcons l₁ hfits (hshift l₁ hall), ?_, e, st',
            .append hc hst₁ hst', herr⟩
          rw [hst₁.fits_iff hc, List.length_singleton, Nat.add_comm] at hnot
          exact hnot
      · exact Or.inr ⟨[], a, l, rfl, nofun, hfits, e, st, .none h, hrun⟩

end CatCache

end Rows

end Taco
