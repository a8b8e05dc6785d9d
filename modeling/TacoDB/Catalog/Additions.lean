import TacoDB.Catalog.Inserts

/-!
# The effects of `AddTable` and `AddIndex`

Both check their arguments with lookups, which change nothing but the cache, then take an
object identifier, and then insert the row of the new table or index and the rows of its
columns. What they do is said here over the content: which arguments pass the checks, and
which rows are there when they return and when they raise.
-/

namespace Taco

open Eff Initoids CatCache

section Steps

variable {builtin : BuiltinTable} {c : Content} {st st' : CatCache} {α : Type}

theorem Holding.computes (h : Holding builtin c st) {x : Eff Failure CatCache α}
    {y : Except Failure α} (hx : Computes (Coherent builtin true st.files c) x y) :
    ∃ st', x st = (y, st') ∧ st'.files = st.files ∧ Holding builtin c st' := by
  obtain ⟨hy, hst'⟩ := hx st h.coherent
  have hfiles := hst'.files_eq
  refine ⟨(x st).2, Prod.ext hy rfl, hfiles, ?_, ?_⟩
  · rw [hfiles]
    exact h.stores
  · rw [hfiles]
    exact hst'

variable {kind : InsertKind α} {l : List α}

theorem Inserted.of_files_eq (h : Inserted kind builtin c st l st') {st₀ : CatCache}
    (hfiles : st.files = st₀.files) : Inserted kind builtin c st₀ l st' :=
  ⟨h.holding, by rw [h.page, hfiles], by rw [h.count, hfiles], by rw [← hfiles]; exact h.others,
    by rw [← hfiles]; exact h.unchanged⟩

theorem insertCatalogEntries_spec (kind : InsertKind α) {l : List α} (hcmp : builtin.Compares)
    (n : Nat) (h : Holding builtin c st) (hfresh : ∀ a ∈ l, Fresh st.files (kind.oid a)) :
    (AllFit kind c st.files 0 l ∧ ∃ st', Inserted kind builtin c st l st' ∧
      insertCatalogEntries (findTableDesc builtin (n + 2)) kind.systabid (l.map kind.vector) st =
        (.ok (), st')) ∨
    ∃ l₁ a l₂, l = l₁ ++ a :: l₂ ∧ AllFit kind c st.files 0 l₁ ∧
      ¬ Fits kind c st.files l₁.length a ∧ ∃ e st', Inserted kind builtin c st l₁ st' ∧
        insertCatalogEntries (findTableDesc builtin (n + 2)) kind.systabid (l.map kind.vector) st =
          (.error e, st') := by
  obtain ⟨table, ht, hanswer⟩ := answers_findTableDesc hcmp h.stores n kind.mem
  obtain ⟨st₁, hrun, hfiles, hst₁⟩ := h.computes hanswer
  obtain ⟨f, hf, -⟩ := h.stores.holds kind.systabid kind.mem
  have hfid : table.tabfid = c.fidOf kind.systabid := by
    rw [Content.fidOf, ht]
    rfl
  have hopen : onFiles (openCatalogFile table.tabfid) st₁ = (.ok (c.fidOf kind.systabid), st₁) := by
    rw [onFiles, hfid, openCatalogFile_eq (by rw [hfiles]; exact hf)]
  have hschema : ∀ s : Schema, (TableDesc.mk table s).schema = s := fun _ => rfl
  have hfresh₁ : ∀ a ∈ l, Fresh st₁.files (kind.oid a) := by
    rw [hfiles]
    exact hfresh
  have hrows := insertRows_spec hst₁ (hschema (systableSchema kind.systabid)) hfresh₁
  unfold insertCatalogEntries
  rw [bind_of_ok hrun]
  dsimp only
  rw [bind_of_ok hopen]
  rw [hfiles] at hrows
  rcases hrows with ⟨hall, st', hst', hok⟩ | ⟨l₁, a, l₂, hl, hall, hnot, e, st', hst', herr⟩
  · exact Or.inl ⟨hall, st', hst'.of_files_eq hfiles, hok⟩
  · exact Or.inr ⟨l₁, a, l₂, hl, hall, hnot, e, st', hst'.of_files_eq hfiles, herr⟩

theorem insertCatalogEntries_row (kind : InsertKind α) (hcmp : builtin.Compares) (n : Nat)
    (h : Holding builtin c st) {a : α} (hfresh : Fresh st.files (kind.oid a)) :
    (Fits kind c st.files 0 a ∧ ∃ st', Inserted kind builtin c st [a] st' ∧
      insertCatalogEntries (findTableDesc builtin (n + 2)) kind.systabid [kind.vector a] st =
        (.ok (), st')) ∨
    (¬ Fits kind c st.files 0 a ∧ ∃ e st', Inserted kind builtin c st [] st' ∧
      insertCatalogEntries (findTableDesc builtin (n + 2)) kind.systabid [kind.vector a] st =
        (.error e, st')) := by
  have hfresh' : ∀ b ∈ [a], Fresh st.files (kind.oid b) := fun b hb => by
    rw [List.mem_singleton.mp hb]
    exact hfresh
  rcases insertCatalogEntries_spec kind hcmp n h hfresh' with
    ⟨hall, hok⟩ | ⟨l₁, b, l₂, hl, -, hnot, e, st', hst', herr⟩
  · exact Or.inl ⟨hall 0 a rfl, hok⟩
  · cases l₁ with
    | nil =>
        obtain ⟨rfl, -⟩ := List.cons.inj hl
        exact Or.inr ⟨hnot, e, st', hst', herr⟩
    | cons b' l₁ => simp at hl

def VolatileFiles.nextOid (files : VolatileFiles) : Nat := files.dbmetaPage.elim 0 (·.nextOid)

def Exhausted (files : VolatileFiles) : Prop := maxOid < files.nextOid

instance (files : VolatileFiles) : Decidable (Exhausted files) :=
  inferInstanceAs (Decidable (_ < _))

theorem Content.Issued.mono {next next' : Nat} (h : c.Issued next) (hle : next ≤ next') :
    c.Issued next' :=
  ⟨fun r hr => lt_of_lt_of_le (h.tables r hr) hle, fun r hr => lt_of_lt_of_le (h.columns r hr) hle,
    fun r hr => lt_of_lt_of_le (h.indexes r hr) hle,
    fun r hr => lt_of_lt_of_le (h.indexColumns r hr) hle⟩

/-- `AllocateOid` has taken `oid`, which no row is about. -/
structure Allocated (builtin : BuiltinTable) (c : Content) (st : CatCache) (oid : Nat)
    (st' : CatCache) : Prop where
  holding : Holding builtin c st'
  fresh : Fresh st'.files oid
  issued : c.Issued oid
  file : ∀ fid, st'.files.file? fid = st.files.file? fid

theorem allocateOid_spec (h : Holding builtin c st) :
    (Exhausted st.files ∧ allocateOid st = (.ok invalidOid, st)) ∨
      ¬ Exhausted st.files ∧ ∃ st', Allocated builtin c st st.files.nextOid st' ∧
        allocateOid st = (.ok st.files.nextOid, st') := by
  obtain ⟨page, hpage, hsys, hmax, hissued⟩ := h.stores.next
  have hnext : st.files.nextOid = page.nextOid := by
    rw [VolatileFiles.nextOid, hpage]
    rfl
  have hopen : onFiles (openCatalogFile 1) st = (.ok 1, st) := by
    rw [onFiles, openCatalogFile, bind_of_ok (getState_apply _),
      if_neg (by unfold invalidFid; omega)]
    rfl
  unfold allocateOid Exhausted
  rw [bind_of_ok hopen, bind_of_ok (getState_apply st), hpage, hnext]
  dsimp only
  rcases Nat.lt_or_ge maxOid page.nextOid with hlt | hle
  · rw [if_pos hlt]
    exact Or.inl ⟨hlt, rfl⟩
  · rw [if_neg (by omega)]
    refine Or.inr ⟨by omega, _, ?_, rfl⟩
    have hsucc : (page.nextOid + 1) % 2 ^ 32 = page.nextOid + 1 :=
      Nat.mod_eq_of_lt (by unfold maxOid at hle; omega)
    rw [hsucc]
    refine ⟨⟨⟨h.stores.wellFormed, h.stores.describes, h.stores.holds, _, rfl, ?_, ?_, ?_⟩, ?_⟩,
      ⟨hsys, ?_⟩, hissued, fun fid => rfl⟩
    · exact Nat.lt_succ_of_lt hsys
    · exact Nat.succ_le_succ hle
    · exact hissued.mono (Nat.le_succ _)
    · exact ⟨rfl, h.coherent.initialized, h.coherent.useIndex, h.coherent.cachedRows,
        h.coherent.cachedTables, h.coherent.cachedIndexes, h.coherent.minCached⟩
    · rintro _ ⟨⟩
      exact Nat.lt_succ_self _

end Steps

structure Kept (builtin : BuiltinTable) (c : Content) (st st' : CatCache) : Prop where
  holding : Holding builtin c st'
  file : ∀ fid, st'.files.file? fid = st.files.file? fid

section Kept

variable {builtin : BuiltinTable} {c : Content} {st st' st'' : CatCache}

theorem Kept.refl (h : Holding builtin c st) : Kept builtin c st st := ⟨h, fun _ => rfl⟩

theorem Kept.of_files_eq (h : Holding builtin c st') (hfiles : st'.files = st.files) :
    Kept builtin c st st' :=
  ⟨h, fun _ => by rw [hfiles]⟩

theorem Kept.compact (h : Kept builtin c st st') (hcompact : Compact c st.files) :
    Compact c st'.files := by
  intro k hk
  rw [← hcompact k hk, VolatileFiles.recordCount, h.file]
  rfl

theorem Kept.trans (h : Kept builtin c st st') (h' : Kept builtin c st' st'') :
    Kept builtin c st st'' :=
  ⟨h'.holding, fun fid => (h'.file fid).trans (h.file fid)⟩

theorem Allocated.kept {oid : Nat} (h : Allocated builtin c st oid st') : Kept builtin c st st' :=
  ⟨h.holding, h.file⟩

theorem Inserted.kept {α : Type} {kind : InsertKind α} (h : Inserted kind builtin c st [] st') :
    Kept builtin c st st' := by
  have hholding := h.holding
  rw [List.map_nil, kind.push_nil] at hholding
  exact .of_files_eq hholding (h.unchanged rfl)

theorem fits_congr {α : Type} (kind : InsertKind α) {c c' : Content} {files files' : VolatileFiles}
    (hfid : c'.fidOf kind.systabid = c.fidOf kind.systabid)
    (hfile : files'.file? (c.fidOf kind.systabid) = files.file? (c.fidOf kind.systabid)) (i : Nat)
    (a : α) : Fits kind c' files' i a ↔ Fits kind c files i a := by
  rw [Fits, Fits, VolatileFiles.recordCount, VolatileFiles.recordCount, hfid, hfile]

theorem allFit_congr {α : Type} (kind : InsertKind α) {c c' : Content}
    {files files' : VolatileFiles} (hfid : c'.fidOf kind.systabid = c.fidOf kind.systabid)
    (hfile : files'.file? (c.fidOf kind.systabid) = files.file? (c.fidOf kind.systabid)) (i : Nat)
    (l : List α) : AllFit kind c' files' i l ↔ AllFit kind c files i l :=
  forall_congr' fun _ => forall_congr' fun _ => imp_congr_right fun _ =>
    fits_congr kind hfid hfile _ _

end Kept

section Added

variable {α β : Type} (p : InsertKind α) (q : InsertKind β)

/-- The object identifier `oid` was taken, and a row about it and the rows `l` of another
systable were inserted in between. -/
structure Added (builtin : BuiltinTable) (c : Content) (st : CatCache) (oid : Nat) (a : α)
    (l : List β) (st' : CatCache) : Prop where
  holding : Holding builtin (q.push (p.push c [p.stored a]) (l.map q.stored)) st'
  fresh : Fresh st'.files oid
  issued : c.Issued oid
  compact : Compact c st.files → Compact (q.push (p.push c [p.stored a]) (l.map q.stored)) st'.files

/-- The outcomes of taking an object identifier and inserting a row about it and the rows that
belong to that one: there is no identifier left; the row cannot be inserted; all rows are
inserted; or one of the others cannot be inserted when those in front of it are there. -/
inductive AddOutcome (builtin : BuiltinTable) (c : Content) (st : CatCache) (oid : Nat) (a : α)
    (l : List β) : Except Failure Nat × CatCache → Prop
  | exhausted {e st'} (exhausted : Exhausted st.files) (kept : Kept builtin c st st') :
      AddOutcome builtin c st oid a l (.error e, st')
  | rowRefused {e st'} (issued : ¬ Exhausted st.files) (row : ¬ Fits p c st.files 0 a)
      (kept : Kept builtin c st st') : AddOutcome builtin c st oid a l (.error e, st')
  | added {st'} (issued : ¬ Exhausted st.files) (row : Fits p c st.files 0 a)
      (rest : AllFit q c st.files 0 l) (added : Added p q builtin c st oid a l st') :
      AddOutcome builtin c st oid a l (.ok oid, st')
  | restRefused {e st' l₁ b l₂} (issued : ¬ Exhausted st.files) (row : Fits p c st.files 0 a)
      (eq : l = l₁ ++ b :: l₂) (rest : AllFit q c st.files 0 l₁)
      (next : ¬ Fits q c st.files l₁.length b) (added : Added p q builtin c st oid a l₁ st') :
      AddOutcome builtin c st oid a l (.error e, st')

variable {p q} {builtin : BuiltinTable} {c : Content} {st : CatCache}

theorem AddOutcome.of_files_eq {st₀ : CatCache} {oid : Nat} {a : α} {l : List β}
    {out : Except Failure Nat × CatCache} (h : AddOutcome p q builtin c st oid a l out)
    (hfiles : st.files = st₀.files) : AddOutcome p q builtin c st₀ oid a l out := by
  have hkept : ∀ {st'}, Kept builtin c st st' → Kept builtin c st₀ st' :=
    fun hk => ⟨hk.holding, fun fid => by rw [hk.file, hfiles]⟩
  have hadd : ∀ {l st'}, Added p q builtin c st oid a l st' → Added p q builtin c st₀ oid a l st' :=
    fun h => ⟨h.holding, h.fresh, h.issued, by rw [← hfiles]; exact h.compact⟩
  cases h with
  | exhausted hex hk =>
      rw [hfiles] at hex
      exact .exhausted hex (hkept hk)
  | rowRefused hex hrow hk =>
      rw [hfiles] at hex hrow
      exact .rowRefused hex hrow (hkept hk)
  | added hex hrow hrest hadded =>
      rw [hfiles] at hex hrow hrest
      exact .added hex hrow hrest (hadd hadded)
  | restRefused hex hrow heq hrest hnext hadded =>
      rw [hfiles] at hex hrow hrest hnext
      exact .restRefused hex hrow heq hrest hnext (hadd hadded)

theorem AddOutcome.of_ok {oid oid' : Nat} {a : α} {l : List β} {st' : CatCache}
    (h : AddOutcome p q builtin c st oid a l (.ok oid', st')) :
    oid' = oid ∧ Fits p c st.files 0 a ∧ AllFit q c st.files 0 l ∧
      Added p q builtin c st oid a l st' := by
  cases h with
  | added _ hrow hrest hadded => exact ⟨rfl, hrow, hrest, hadded⟩

/-- The end of `AddTable` and of `AddIndex`. -/
theorem addRows_outcome (hcmp : builtin.Compares) (n : Nat) (h : Holding builtin c st)
    (hne : p.systabid ≠ q.systabid) (row : Nat → α) (rows : Nat → List β)
    (hrow : ∀ oid, p.oid (row oid) = oid) (hrows : ∀ oid, ∀ b ∈ rows oid, q.oid b = oid) :
    AddOutcome p q builtin c st st.files.nextOid (row st.files.nextOid) (rows st.files.nextOid)
      ((allocateOid >>= fun oid =>
        if oid = invalidOid then logError "run out of valid Oid"
        else
          insertCatalogEntries (findTableDesc builtin (n + 2)) p.systabid [p.vector (row oid)] >>=
            fun _ => insertCatalogEntries (findTableDesc builtin (n + 2)) q.systabid
              ((rows oid).map q.vector) >>= fun _ => pure oid) st) := by
  rcases allocateOid_spec h with ⟨hex, halloc⟩ | ⟨hex, st₂, hoid, halloc⟩
  · rw [bind_of_ok halloc, if_pos rfl]
    exact .exhausted hex (.refl h)
  generalize st.files.nextOid = oid at hoid halloc
  have hvalid : oid ≠ invalidOid := by
    have := hoid.fresh.1
    unfold invalidOid
    omega
  rw [bind_of_ok halloc, if_neg hvalid]
  have hfresh : Fresh st₂.files (p.oid (row oid)) := by
    rw [hrow]
    exact hoid.fresh
  have hfits : Fits p c st₂.files 0 (row oid) ↔ Fits p c st.files 0 (row oid) :=
    fits_congr p rfl (hoid.file _) _ _
  rcases insertCatalogEntries_row p hcmp n hoid.holding hfresh with
    ⟨hfit, st₃, hst₃, hinsert⟩ | ⟨hfit, e, st₃, hst₃, hinsert⟩
  · rw [bind_of_ok hinsert]
    have hfid₃ : (p.push c ([row oid].map p.stored)).fidOf q.systabid = c.fidOf q.systabid :=
      Content.fidOf_of_le h.stores.describes (p.le_push c _) q.mem
    have hfile₃ : st₃.files.file? (c.fidOf q.systabid) = st.files.file? (c.fidOf q.systabid) := by
      refine (hst₃.others _ fun hfid => hne ?_).trans (hoid.file _)
      exact (h.stores.describes.fids _ q.mem _ p.mem hfid).symm
    have hfresh₃ : ∀ b ∈ rows oid, Fresh st₃.files (q.oid b) := by
      intro b hb
      rw [hrows oid b hb, Fresh, hst₃.page]
      exact hoid.fresh
    have hadded : ∀ {l : List β} {st' : CatCache},
        Inserted q builtin (p.push c ([row oid].map p.stored)) st₃ l st' →
          Added p q builtin c st oid (row oid) l st' := by
      intro l st' hst'
      refine ⟨hst'.holding, ?_, hoid.issued, fun hcompact => ?_⟩
      · rw [Fresh, hst'.page, hst₃.page]
        exact hoid.fresh
      · have hcompact₂ := hst₃.compact h.stores.describes (hoid.kept.compact hcompact)
        exact hst'.compact hst₃.holding.stores.describes hcompact₂
    have hall : ∀ l, AllFit q (p.push c ([row oid].map p.stored)) st₃.files 0 l ↔
        AllFit q c st.files 0 l :=
      allFit_congr q hfid₃ hfile₃ 0
    rcases insertCatalogEntries_spec q hcmp n hst₃.holding hfresh₃ with
      ⟨hrest, st', hst', hok⟩ | ⟨l₁, b, l₂, hl, hrest, hnot, e, st', hst', herr⟩
    · rw [bind_of_ok hok]
      exact .added hex (hfits.mp hfit) ((hall _).mp hrest) (hadded hst')
    · rw [bind_of_error herr]
      exact .restRefused hex (hfits.mp hfit) hl ((hall _).mp hrest)
        (fun hfit => hnot ((fits_congr q hfid₃ hfile₃ _ _).mpr hfit)) (hadded hst')
  · rw [bind_of_error hinsert]
    exact .rowRefused hex (fun hfit' => hfit (hfits.mpr hfit')) (hoid.kept.trans hst₃.kept)

end Added

namespace Content

/-- The loop of `AddTable` that looks the types up. -/
def checkTypes (c : Content) : List Nat → Except Failure Unit
  | [] => .ok ()
  | typid :: typids =>
      match c.findType typid with
      | none => .error (.tdbError .kError s!"type {typid} not found")
      | some _ => c.checkTypes typids

theorem findType_isSome_of_checkTypes {c : Content} {typids : List Nat}
    (h : c.checkTypes typids = .ok ()) : ∀ typid ∈ typids, (c.findType typid).isSome := by
  induction typids with
  | nil => exact nofun
  | cons typid typids ih =>
      unfold checkTypes at h
      cases htyp : c.findType typid with
      | none =>
          rw [htyp] at h
          cases h
      | some typ =>
          rw [htyp] at h
          intro typid' hmem
          rcases List.mem_cons.mp hmem with rfl | hmem
          · rw [htyp]
            rfl
          · exact ih h typid' hmem

end Content

structure AddTableArgs.Accepted (args a : AddTableArgs) (c : Content) : Prop where
  sizes : args.checkSizes = .ok a
  types : c.checkTypes (a.coltypid.take a.numFields.toNat) = .ok ()
  number : 0 ≤ a.numFields

section AddTable

variable {builtin : BuiltinTable} {c : Content} {st : CatCache}

theorem checkTypes_computes (hcmp : builtin.Compares) {files : VolatileFiles}
    (hs : Stores files c) {fd : Nat → Eff Failure CatCache (Option TableDesc)}
    (hfd : Answers (Coherent builtin true files c) fd c tabType) (typids : List Nat) :
    Computes (Coherent builtin true files c) (checkTypes builtin fd typids)
      (c.checkTypes typids) := by
  induction typids with
  | nil => exact .ret ()
  | cons typid typids ih =>
      unfold CatCache.checkTypes Content.checkTypes
      refine .bind_ok (findType_computes hcmp hs hfd typid) ?_
      cases c.findType typid with
      | none => exact .failure _
      | some typ => exact ih

/-- The outcomes of `AddTable`: it is refused, or a row of `Table` and the rows of `Column` are
added as far as they can be. -/
inductive AddTableOutcome (builtin : BuiltinTable) (c : Content) (st : CatCache)
    (args : AddTableArgs) : Except Failure Nat × CatCache → Prop
  | refused {e st'} (refused : ¬ ∃ a, args.Accepted a c) (kept : Kept builtin c st st') :
      AddTableOutcome builtin c st args (.error e, st')
  | accepted {a out} (accepted : args.Accepted a c)
      (outcome : AddOutcome .table .column builtin c st st.files.nextOid
        (a.tableRow st.files.nextOid) (a.columnRows st.files.nextOid) out) :
      AddTableOutcome builtin c st args out

theorem addTable_outcome (hcmp : builtin.Compares) (n : Nat) (h : Holding builtin c st)
    (args : AddTableArgs) :
    AddTableOutcome builtin c st args
      (addTable builtin (findTableDesc builtin (n + 2)) args st) := by
  unfold addTable
  cases hsizes : args.checkSizes with
  | error e =>
      refine .refused ?_ (.refl h)
      rintro ⟨a, hacc⟩
      have := hacc.sizes
      rw [hsizes] at this
      cases this
  | ok a =>
      rw [bind_of_ok (ofExcept_apply _ _)]
      have hunique : ∀ {a'}, args.Accepted a' c → a' = a := by
        intro a' hacc
        have := hacc.sizes
        rw [hsizes] at this
        exact (Except.ok.inj this).symm
      obtain ⟨st₁, hrun, hfiles, hst₁⟩ := h.computes (checkTypes_computes hcmp h.stores
        (answers_findTableDesc hcmp h.stores n (by decide)) (a.coltypid.take a.numFields.toNat))
      have hkept₁ : Kept builtin c st st₁ := .of_files_eq hst₁ hfiles
      cases htypes : c.checkTypes (a.coltypid.take a.numFields.toNat) with
      | error e =>
          rw [htypes] at hrun
          rw [bind_of_error hrun]
          refine .refused ?_ hkept₁
          rintro ⟨a', hacc⟩
          cases hunique hacc
          have := hacc.types
          rw [htypes] at this
          cases this
      | ok u =>
          rw [htypes] at hrun
          rw [bind_of_ok hrun]
          by_cases hnum : a.numFields < 0
          · have hrefused : ¬ ∃ a, args.Accepted a c := by
              rintro ⟨a', hacc⟩
              cases hunique hacc
              exact absurd hacc.number (by omega)
            rcases allocateOid_spec hst₁ with ⟨-, halloc⟩ | ⟨-, st₂, hoid, halloc⟩
            · rw [bind_of_ok halloc, if_pos rfl]
              exact .refused hrefused hkept₁
            · have hvalid : st₁.files.nextOid ≠ invalidOid := by
                have := hoid.fresh.1
                unfold invalidOid
                omega
              rw [bind_of_ok halloc, if_neg hvalid, if_pos hnum]
              exact .refused hrefused (hkept₁.trans hoid.kept)
          · have hout := addRows_outcome (p := .table) (q := .column) hcmp n hst₁ (by decide)
              a.tableRow a.columnRows (fun _ => rfl) fun oid col hcol => by
                obtain ⟨i, -, rfl⟩ := List.mem_map.mp hcol
                rfl
            have hout' := hout.of_files_eq hfiles
            rw [hfiles] at hout'
            simp only [if_neg hnum]
            exact .accepted ⟨hsizes, htypes, Int.not_lt.mp hnum⟩ hout'

/-- When `AddTable` returns, its arguments were accepted and the rows are there. -/
theorem addTable_ok (hcmp : builtin.Compares) {n : Nat} (h : Holding builtin c st)
    {args : AddTableArgs} {tabid : Nat} {st' : CatCache}
    (hrun : addTable builtin (findTableDesc builtin (n + 2)) args st = (.ok tabid, st')) :
    ∃ a, args.Accepted a c ∧ tabid = st.files.nextOid ∧
      Added .table .column builtin c st tabid (a.tableRow tabid) (a.columnRows tabid) st' := by
  have hout := addTable_outcome hcmp n h args
  rw [hrun] at hout
  cases hout with
  | @accepted a out hacc hout =>
      obtain ⟨rfl, -, -, hadded⟩ := hout.of_ok
      exact ⟨a, hacc, rfl, hadded⟩

end AddTable

end Taco
