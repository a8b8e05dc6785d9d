import TacoDB.Catalog.InitCatalog
import TacoDB.Catalog.Inserts
import TacoDB.Catalog.ReaderLines

/-!
# The files that `LoadInitFile` makes

Each section of the init data file that has rows gets a catalog file of its own, to which the
payloads of its rows are appended in the order of their lines. `Loads` says that the loop has
gone through these sections; a line takes it to the sections that the line makes of them.
-/

namespace Taco

open Eff Initoids SlotHeap Buffer InitDataFileReader

/-- The records of a file, none of which is out of use. -/
structure InmemFile.HasRecords (f : InmemFile) (recs : List ByteString) : Prop where
  wellFormed : f.WellFormed
  slots_eq : f.slots = recs.map fun rec => ⟨true, rec⟩

namespace InmemFile

variable {f : InmemFile} {recs : List ByteString} {bytes : ByteString}

theorem hasRecords_empty : empty.HasRecords [] := ⟨wellFormed_empty, rfl⟩

theorem HasRecords.length_eq (h : f.HasRecords recs) : f.offsets.length = recs.length := by
  rw [← length_slots, h.slots_eq, List.length_map]

theorem HasRecords.push (h : f.HasRecords recs) (hdvd : 8 ∣ bytes.length)
    (hlen : bytes.length ≤ 32767) (hroom : f.offsets.length < 65534) :
    (f.push bytes).HasRecords (recs ++ [bytes]) := by
  refine ⟨h.wellFormed.push hlen hroom, ?_⟩
  rw [h.wellFormed.slots_push_aligned hdvd hlen, h.slots_eq, List.map_append]
  rfl

theorem HasRecords.records_eq (h : f.HasRecords recs) : f.records = recs := by
  rw [records, h.slots_eq, List.filter_eq_self.mpr (by simp), List.map_map]
  exact List.map_id _

end InmemFile

def InitSection.StoredAs (sec : InitSection) (recs : List ByteString) : Prop :=
  List.Forall₂ (Encodes sec.schema) sec.rows recs

structure FilesOf (page : Option DBMeta) (secs : List InitSection)
    (tabid2fid : Nat → Option Nat) (files : VolatileFiles) : Prop where
  wellFormed : files.WellFormed
  page_eq : files.dbmetaPage = page
  count : files.systables.length = secs.length
  few : secs.length + 1 < 2 ^ 32
  bound : ∀ tabid fid, tabid2fid tabid = some fid → fid < files.systables.length + 2
  injective : ∀ tabid tabid' fid, tabid2fid tabid = some fid → tabid2fid tabid' = some fid →
    tabid = tabid'
  known : ∀ tabid fid, tabid2fid tabid = some fid → ∃ sec ∈ secs, sec.tabid = tabid
  filed : ∀ sec ∈ secs, ∃ fid f recs, tabid2fid sec.tabid = some fid ∧
    files.file? fid = some f ∧ f.HasRecords recs ∧ sec.StoredAs recs

theorem emplace_of_none {κ α : Type} [DecidableEq κ] {m : κ → Option α} {k : κ} (h : m k = none)
    (a : α) : emplace m k a = Function.update m k (some a) := by
  rw [emplace, h, Option.isSome_none, if_neg Bool.false_ne_true]

namespace FilesOf

variable {page : Option DBMeta} {secs : List InitSection} {sec : InitSection}
  {tabid2fid : Nat → Option Nat} {files : VolatileFiles} {fid : Nat} {f : InmemFile}

theorem not_known (h : FilesOf page secs tabid2fid files) {tabid : Nat}
    (hnew : tabid ∉ secs.map (·.tabid)) : tabid2fid tabid = none := by
  cases hfid : tabid2fid tabid with
  | none => rfl
  | some fid =>
      obtain ⟨sec', hsec', htabid⟩ := h.known _ _ hfid
      exact absurd (List.mem_map.mpr ⟨sec', hsec', htabid⟩) hnew

theorem create (h : FilesOf page secs tabid2fid files) (hnew : sec.tabid ∉ secs.map (·.tabid))
    (hrows : sec.rows = []) (hfew : secs.length + 2 < 2 ^ 32) :
    FilesOf page (sec :: secs) (emplace tabid2fid sec.tabid (files.systables.length + 2))
      { files with systables := files.systables ++ [InmemFile.empty] } := by
  have hmap := emplace_of_none (h.not_known hnew) (files.systables.length + 2)
  have hold : ∀ {tabid fid}, tabid ≠ sec.tabid →
      emplace tabid2fid sec.tabid (files.systables.length + 2) tabid = some fid →
        tabid2fid tabid = some fid := by
    intro tabid fid hne hfid
    rwa [hmap, Function.update_of_ne hne] at hfid
  have hself : emplace tabid2fid sec.tabid (files.systables.length + 2) sec.tabid =
      some (files.systables.length + 2) := by
    rw [hmap, Function.update_self]
  refine ⟨?_, h.page_eq, ?_, hfew, ?_, ?_, ?_, ?_⟩
  · intro g hg
    rcases List.mem_append.mp hg with hg | hg
    · exact h.wellFormed g hg
    · rw [List.mem_singleton.mp hg]
      exact InmemFile.wellFormed_empty
  · rw [List.length_append, h.count]
    rfl
  · intro tabid fid hfid
    rw [List.length_append, List.length_singleton]
    by_cases heq : tabid = sec.tabid
    · subst heq
      rw [hself] at hfid
      cases hfid
      omega
    · have := h.bound _ _ (hold heq hfid)
      omega
  · intro tabid tabid' fid hfid hfid'
    by_cases heq : tabid = sec.tabid
    · by_cases heq' : tabid' = sec.tabid
      · rw [heq, heq']
      · rw [heq, hself] at hfid
        have := h.bound _ _ (hold heq' hfid')
        cases hfid
        omega
    · by_cases heq' : tabid' = sec.tabid
      · rw [heq', hself] at hfid'
        have := h.bound _ _ (hold heq hfid)
        cases hfid'
        omega
      · exact h.injective _ _ _ (hold heq hfid) (hold heq' hfid')
  · intro tabid fid hfid
    by_cases heq : tabid = sec.tabid
    · exact ⟨sec, List.mem_cons_self, heq.symm⟩
    · obtain ⟨sec', hsec', htabid⟩ := h.known _ _ (hold heq hfid)
      exact ⟨sec', List.mem_cons_of_mem _ hsec', htabid⟩
  · intro sec' hsec'
    rcases List.mem_cons.mp hsec' with rfl | hsec'
    · refine ⟨_, InmemFile.empty, [], hself, ?_, InmemFile.hasRecords_empty, ?_⟩
      · rw [VolatileFiles.file?, if_pos (by omega), Nat.add_sub_cancel,
          List.getElem?_append_right (Nat.le_refl _), Nat.sub_self]
        rfl
      · rw [InitSection.StoredAs, hrows]
        exact .nil
    · obtain ⟨fid, f, recs, hfid, hf, hrecs, hstored⟩ := h.filed sec' hsec'
      have hne : sec'.tabid ≠ sec.tabid := fun heq =>
        hnew (heq ▸ List.mem_map_of_mem hsec')
      refine ⟨fid, f, recs, ?_, ?_, hrecs, hstored⟩
      · rw [hmap, Function.update_of_ne hne, hfid]
      · have hlt := (VolatileFiles.file?_eq_some hf)
        rw [VolatileFiles.file?, if_pos hlt.1,
          List.getElem?_append_left (List.getElem?_eq_some_iff.mp hlt.2).1, hlt.2]

theorem append (h : FilesOf page (sec :: secs) tabid2fid files)
    (hnodup : sec.tabid ∉ secs.map (·.tabid)) (hfid : tabid2fid sec.tabid = some fid)
    (hf : files.file? fid = some f) {row : List Datum} {buf : ByteString}
    (hbuf : Encodes sec.schema row buf) (hdvd : 8 ∣ buf.length) (hlen : buf.length ≤ 32767)
    (hroom : f.offsets.length < 65534) :
    FilesOf page (sec.addRow row :: secs) tabid2fid (files.setFile fid (f.push buf)) := by
  obtain ⟨fid', f', recs, hfid', hf', hrecs, hstored⟩ := h.filed sec List.mem_cons_self
  rw [hfid] at hfid'
  cases hfid'
  rw [hf] at hf'
  cases hf'
  have hcount : (files.setFile fid (f.push buf)).systables.length = files.systables.length :=
    List.length_set
  refine ⟨h.wellFormed.setFile (h.wellFormed.file hf |>.push hlen hroom) fid, h.page_eq, ?_,
    h.few, ?_, h.injective, ?_, ?_⟩
  · rw [hcount, h.count]
    rfl
  · rw [hcount]
    exact h.bound
  · intro tabid fid' hfid'
    obtain ⟨sec', hsec', htabid⟩ := h.known _ _ hfid'
    rcases List.mem_cons.mp hsec' with rfl | hsec'
    · exact ⟨sec'.addRow row, List.mem_cons_self, htabid⟩
    · exact ⟨sec', List.mem_cons_of_mem _ hsec', htabid⟩
  · intro sec' hsec'
    rcases List.mem_cons.mp hsec' with rfl | hsec'
    · exact ⟨fid, f.push buf, recs ++ [buf], hfid, VolatileFiles.file?_setFile_self hf _,
        hrecs.push hdvd hlen hroom, List.rel_append hstored (.cons hbuf .nil)⟩
    · obtain ⟨fid', f', recs', hfid', hf', hrecs', hstored'⟩ :=
        h.filed sec' (List.mem_cons_of_mem _ hsec')
      have hne : fid ≠ fid' := by
        rintro rfl
        exact hnodup (h.injective _ _ _ hfid hfid' ▸ List.mem_map_of_mem hsec')
      exact ⟨fid', f', recs', hfid', by rw [VolatileFiles.file?_setFile_of_ne hf hne, hf'], hrecs',
        hstored'⟩

end FilesOf

/-- The file of the last section when the lines of these sections have been read. -/
def currentFid (tabid2fid : Nat → Option Nat) : List InitSection → Nat
  | [] => invalidFid
  | sec :: _ => if sec.rows = [] then invalidFid else (tabid2fid sec.tabid).getD invalidFid

/-- The loop of `LoadInitFile` has gone through the lines of these sections. -/
structure Loads (page : Option DBMeta) (secs : List InitSection) (l : InitLoad)
    (files : VolatileFiles) : Prop where
  files : FilesOf page (secs.filter fun sec => sec.rows ≠ []) l.tabid2fid files
  older : ∀ sec ∈ secs.tail, sec.rows ≠ []
  tabid_eq : l.tabid = secs.head?.elim invalidOid (·.tabid)
  fid_eq : l.fid = currentFid l.tabid2fid secs

structure Opened (page : Option DBMeta) (sec : InitSection) (older : List InitSection)
    (l : InitLoad) (files : VolatileFiles) : Prop where
  files : FilesOf page (sec :: older) l.tabid2fid files
  older : ∀ sec ∈ older, sec.rows ≠ []
  tabid_eq : l.tabid = sec.tabid
  fid_eq : l.tabid2fid sec.tabid = some l.fid

section Steps

variable {page : Option DBMeta} {secs older : List InitSection} {sec : InitSection}
  {l l' : InitLoad} {files files' : VolatileFiles} {row : List Datum} {buf : ByteString}

theorem filter_rows (h : ∀ sec ∈ secs, sec.rows ≠ []) :
    (secs.filter fun sec => sec.rows ≠ []) = secs :=
  List.filter_eq_self.mpr fun sec hsec => decide_eq_true (h sec hsec)

theorem Loads.fid_ne (h : Loads page (sec :: older) l files) (hrows : sec.rows ≠ []) :
    l.tabid2fid sec.tabid = some l.fid ∧ l.fid ≠ invalidFid := by
  have hmem : sec ∈ (sec :: older).filter fun sec => sec.rows ≠ [] :=
    List.mem_filter.mpr ⟨List.mem_cons_self, decide_eq_true hrows⟩
  obtain ⟨fid, f, recs, hfid, hf, -⟩ := h.files.filed sec hmem
  have heq := h.fid_eq
  rw [currentFid, if_neg hrows, hfid, Option.getD_some] at heq
  rw [hfid, heq]
  refine ⟨rfl, ?_⟩
  have := (VolatileFiles.file?_eq_some hf).1
  unfold invalidFid
  omega

theorem Loads.table (h : Loads page secs l files) (hvalid : ∀ sec ∈ secs, sec.tabid ≠ invalidOid)
    (hrows : sec.rows = []) (hrun : l.table sec.tabid = .ok l') :
    Loads page (sec :: secs) l' files := by
  have hfilter : ((sec :: secs).filter fun sec => sec.rows ≠ []) =
      secs.filter fun sec => sec.rows ≠ [] := by
    rw [List.filter_cons_of_neg (by simp [hrows])]
  have hloads : ∀ l₁ : InitLoad, l₁.tabid = sec.tabid → l₁.fid = invalidFid →
      l₁.tabid2fid = l.tabid2fid → (∀ sec' ∈ secs, sec'.rows ≠ []) →
        Loads page (sec :: secs) l₁ files := by
    intro l₁ htabid hfid hmap hall
    refine ⟨?_, hall, htabid, ?_⟩
    · rw [hfilter, hmap]
      exact h.files
    · rw [currentFid, if_pos hrows, hfid]
  cases secs with
  | nil =>
      have htabid := h.tabid_eq
      rw [InitLoad.table, htabid] at hrun
      cases hrun
      exact hloads _ rfl h.fid_eq rfl fun sec' hsec' => nomatch hsec'
  | cons last older =>
      have htabid : l.tabid ≠ invalidOid := by
        rw [h.tabid_eq]
        exact hvalid last List.mem_cons_self
      rw [InitLoad.table, if_pos htabid] at hrun
      by_cases hfid : l.fid = invalidFid
      · rw [if_neg (not_not_intro hfid)] at hrun
        cases hrun
      · rw [if_pos hfid] at hrun
        cases hrun
        refine hloads _ rfl rfl rfl fun sec' hsec' => ?_
        rcases List.mem_cons.mp hsec' with rfl | hsec'
        · intro hnil
          rw [h.fid_eq, currentFid, if_pos hnil] at hfid
          exact hfid rfl
        · exact h.older sec' hsec'

theorem Loads.table_succeeds (h : Loads page secs l files) (hrows : ∀ sec ∈ secs, sec.rows ≠ [])
    (tabid : Nat) : ∃ l', l.table tabid = .ok l' := by
  rw [InitLoad.table]
  cases secs with
  | nil =>
      have htabid : l.tabid = invalidOid := h.tabid_eq
      rw [if_neg (not_not_intro htabid)]
      exact ⟨_, rfl⟩
  | cons last older =>
      rw [if_pos (h.fid_ne (hrows last List.mem_cons_self)).2]
      split
      · exact ⟨_, rfl⟩
      · exact ⟨_, rfl⟩

/-- The first row of a section makes its file, unless there is no file ID left. -/
theorem Loads.file (h : Loads page (sec :: older) l files)
    (hnew : sec.tabid ∉ older.map (·.tabid)) (hcount : older.length + 2 ≤ 2 ^ 32) :
    (∃ l' files', l.file files = (.ok l', files') ∧ Opened page sec older l' files') ∨
      (older.length + 2 = 2 ^ 32 ∧ ∃ e files', l.file files = (.error e, files')) := by
  have holder := h.older
  rw [List.tail_cons] at holder
  by_cases hrows : sec.rows = []
  · have hfiles := h.files
    rw [List.filter_cons_of_neg (by simp [hrows]), filter_rows holder] at hfiles
    have hfid := h.fid_eq
    rw [currentFid, if_pos hrows] at hfid
    have htabid : l.tabid = sec.tabid := h.tabid_eq
    have hcreate : createCatalogFile true files = (.ok ((files.systables.length + 2) % 2 ^ 32),
        { files with systables := files.systables ++ [InmemFile.empty] }) := rfl
    rw [InitLoad.file, if_pos hfid, bind_of_ok hcreate, hfiles.count]
    rcases Nat.lt_or_ge (older.length + 2) (2 ^ 32) with hlt | hge
    · have hopen : openCatalogFile (older.length + 2)
          { files with systables := files.systables ++ [InmemFile.empty] } =
            (.ok (older.length + 2),
              { files with systables := files.systables ++ [InmemFile.empty] }) := by
        rw [openCatalogFile, bind_of_ok (getState_apply _), if_neg]
        · rfl
        · rw [List.length_append, List.length_singleton, hfiles.count]
          unfold invalidFid
          omega
      rw [Nat.mod_eq_of_lt hlt, bind_of_ok hopen]
      refine Or.inl ⟨_, _, rfl, ?_, holder, htabid, ?_⟩
      · have hopened := hfiles.create hnew hrows hlt
        rw [hfiles.count] at hopened
        rw [htabid]
        exact hopened
      · rw [htabid, emplace_of_none (hfiles.not_known hnew)]
        exact Function.update_self ..
    · have hopen : ∃ e, openCatalogFile ((older.length + 2) % 2 ^ 32)
          { files with systables := files.systables ++ [InmemFile.empty] } =
            (.error e, { files with systables := files.systables ++ [InmemFile.empty] }) := by
        have hzero : (older.length + 2) % 2 ^ 32 = invalidFid := by
          unfold invalidFid
          omega
        rw [openCatalogFile, bind_of_ok (getState_apply _), if_pos (Or.inl hzero)]
        exact ⟨_, rfl⟩
      obtain ⟨e, hopen⟩ := hopen
      exact Or.inr ⟨by omega, e, _, bind_of_error hopen _⟩
  · refine Or.inl ⟨l, files, ?_, ?_, holder, h.tabid_eq, (h.fid_ne hrows).1⟩
    · rw [InitLoad.file, if_neg (h.fid_ne hrows).2]
      rfl
    · have hfiles := h.files
      rwa [List.filter_cons_of_pos (by simp [hrows]), filter_rows holder] at hfiles

theorem Opened.append (h : Opened page sec older l files) (hnew : sec.tabid ∉ older.map (·.tabid))
    (hbuf : Encodes sec.schema row buf) (hdvd : 8 ∣ buf.length) (hlen : buf.length ≤ 32767) :
    (sec.rows.length < 65534 ∧ ∃ rid files', appendRecord l.fid (.ofBuffer buf) files =
        (.ok rid, files') ∧ Loads page (sec.addRow row :: older) l files') ∨
      (65534 ≤ sec.rows.length ∧ ∃ e files', appendRecord l.fid (.ofBuffer buf) files =
        (.error e, files')) := by
  obtain ⟨fid, f, recs, hfid, hf, hrecs, hstored⟩ := h.files.filed sec List.mem_cons_self
  rw [h.fid_eq] at hfid
  cases hfid
  have hcount : f.offsets.length = sec.rows.length := by
    rw [hrecs.length_eq]
    exact hstored.length_eq.symm
  rcases Nat.lt_or_ge f.offsets.length 65534 with hroom | hfull
  · refine Or.inl ⟨by omega, _, _, appendRecord_eq hf hrecs.wellFormed hroom
      (content_ofBuffer hlen) hlen, ?_⟩
    have hfiles := h.files.append hnew h.fid_eq hf hbuf hdvd hlen hroom
    have hrows : ∀ sec' ∈ sec.addRow row :: older, sec'.rows ≠ [] := by
      intro sec' hsec'
      rcases List.mem_cons.mp hsec' with rfl | hsec'
      · exact List.append_ne_nil_of_right_ne_nil _ (List.cons_ne_nil _ _)
      · exact h.older sec' hsec'
    refine ⟨?_, h.older, h.tabid_eq, ?_⟩
    · rw [filter_rows hrows]
      exact hfiles
    · have htabid : (sec.addRow row).tabid = sec.tabid := rfl
      rw [currentFid, if_neg (hrows _ List.mem_cons_self), htabid, h.fid_eq]
      rfl
  · obtain ⟨e, herror⟩ : ∃ e, appendRecord l.fid (.ofBuffer buf) files = (.error e, files) :=
      appendRecord_full hf hfull
    exact Or.inr ⟨by omega, e, files, herror⟩

theorem assert_aligned (hdvd : 8 ∣ buf.length) (hlen : buf.length ≤ 32767) (text : String) :
    assert (toFieldOffset (maxAlign (toFieldOffset buf.length)) = toFieldOffset buf.length) text =
      (pure () : Eff Failure VolatileFiles Unit) := by
  have halign : Alignment.alignUp 8 (buf.length : Int) = buf.length := by
    unfold Alignment.alignUp
    omega
  have hlength : toFieldOffset buf.length = buf.length :=
    toFieldOffset_of_mem (by omega) (by omega)
  rw [hlength, Schema.maxAlign_of_le (by omega) (by omega), halign, hlength, decide_eq_true rfl,
    assert, if_pos rfl]

theorem Loads.data (h : Loads page (sec :: older) l files)
    (hnew : sec.tabid ∉ older.map (·.tabid)) (hcount : older.length + 2 ≤ 2 ^ 32)
    (hbuf : Encodes sec.schema row buf) (hdvd : 8 ∣ buf.length) (hlen : buf.length ≤ 32767) :
    (∃ l' files', l.data buf files = (.ok l', files') ∧
        Loads page (sec.addRow row :: older) l' files') ∨
      ((65534 ≤ sec.rows.length ∨ older.length + 2 = 2 ^ 32) ∧
        ∃ e files', l.data buf files = (.error e, files')) := by
  rw [InitLoad.data, assert_aligned hdvd hlen, bind_of_ok (pure_apply _ _)]
  rcases h.file hnew hcount with ⟨l₁, files₁, hfile, hopened⟩ | ⟨hfull, e, files₁, hfile⟩
  · rw [bind_of_ok hfile]
    rcases hopened.append hnew hbuf hdvd hlen with
      ⟨-, rid, files', happend, hloads⟩ | ⟨hroom, e, files', happend⟩
    · exact Or.inl ⟨l₁, files', bind_of_ok happend _, hloads⟩
    · exact Or.inr ⟨Or.inl hroom, e, files', bind_of_error happend _⟩
  · exact Or.inr ⟨Or.inr hfull, e, files₁, bind_of_error hfile _⟩

end Steps

/-- The payload of a row that the input functions give for a line has a length that a file
keeps. -/
def SoundRows (builtin : BuiltinTable) (s : Schema) : Prop :=
  ∀ toks row buf, dataRow builtin s toks = some row → Encodes s row buf →
    8 ∣ buf.length ∧ buf.length ≤ 32767

structure Admissible (builtin : BuiltinTable) (secs : List InitSection) : Prop where
  nodup : (secs.map (·.tabid)).Nodup
  valid : ∀ sec ∈ secs, sec.tabid ≠ invalidOid
  bounded : ∀ sec ∈ secs, sec.tabid < 2 ^ 32
  sound : ∀ sec ∈ secs, SoundRows builtin sec.schema

/-- More lines add rows to the last of these sections, and then other sections. -/
def Grows (secs final : List InitSection) : Prop :=
  ∀ sec older, secs = sec :: older → ∃ newer sec', final = newer ++ sec' :: older ∧
    sec'.tabid = sec.tabid ∧ sec'.schema = sec.schema ∧ sec.rows <+: sec'.rows

section Grows

variable {num : Numbers} {builtin : BuiltinTable} {secs secs' final : List InitSection}
  {line : ByteString}

theorem Grows.refl (secs : List InitSection) : Grows secs secs :=
  fun sec _ heq => ⟨[], sec, heq, rfl, rfl, List.prefix_refl _⟩

theorem Grows.of_addLine (h : addLine num builtin secs line = some secs')
    (hgrows : Grows secs' final) : Grows secs final := by
  rintro sec older rfl
  rcases addLine_iff.mp h with ⟨new, -, rfl⟩ | ⟨sec', older', row, heq, -, rfl⟩
  · obtain ⟨newer, new', rfl, -⟩ := hgrows new (sec :: older) rfl
    exact ⟨newer ++ [new'], sec, by rw [List.append_assoc]; rfl, rfl, rfl, List.prefix_refl _⟩
  · obtain ⟨rfl, rfl⟩ := List.cons.inj heq
    obtain ⟨newer, sec', rfl, htabid, hschema, hrows⟩ := hgrows _ older rfl
    exact ⟨newer, sec', rfl, htabid, hschema, (List.prefix_append _ _).trans hrows⟩

theorem Grows.of_foldlM {lines : List ByteString}
    (h : lines.foldlM (addLine num builtin) secs = some final) : Grows secs final := by
  induction lines generalizing secs with
  | nil =>
      cases h
      exact .refl _
  | cons line lines ih =>
      obtain ⟨secs', hadd, hrest⟩ := Option.bind_eq_some_iff.mp h
      exact .of_addLine hadd (ih hrest)

theorem Admissible.of_grows (h : Admissible builtin final) (hgrows : Grows secs final) :
    Admissible builtin secs := by
  cases secs with
  | nil => exact ⟨List.nodup_nil, by simp, by simp, by simp⟩
  | cons sec older =>
      obtain ⟨newer, sec', rfl, htabid, hschema, -⟩ := hgrows sec older rfl
      have hmem : ∀ {p : InitSection → Prop}, (∀ s ∈ newer ++ sec' :: older, p s) →
          p sec' ∧ ∀ s ∈ older, p s :=
        fun hall => ⟨hall _ (by simp), fun s hs => hall s (by simp [hs])⟩
      have hcons : ∀ {p : InitSection → Prop}, p sec → (∀ s ∈ older, p s) →
          ∀ s ∈ sec :: older, p s := by
        intro p hsec holder s hs
        rcases List.mem_cons.mp hs with rfl | hs
        · exact hsec
        · exact holder s hs
      obtain ⟨hvalid, hvalid'⟩ := hmem h.valid
      obtain ⟨hbound, hbound'⟩ := hmem h.bounded
      obtain ⟨hsound, hsound'⟩ := hmem h.sound
      refine ⟨?_, hcons (htabid ▸ hvalid) hvalid', hcons (htabid ▸ hbound) hbound',
        hcons (hschema ▸ hsound) hsound'⟩
      have hnodup := h.nodup
      rw [List.map_append, List.map_cons, htabid] at hnodup
      exact (List.nodup_append.mp hnodup).2.1

theorem Admissible.length_lt (h : Admissible builtin secs) : secs.length < 2 ^ 32 := by
  have hsub : secs.map (·.tabid) ⊆ List.range' 1 (2 ^ 32 - 1) := by
    intro tabid htabid
    obtain ⟨sec, hsec, rfl⟩ := List.mem_map.mp htabid
    have hvalid := h.valid sec hsec
    have hbounded := h.bounded sec hsec
    unfold invalidOid at hvalid
    exact List.mem_range'_1.mpr ⟨by omega, by omega⟩
  have hlen := (h.nodup.subperm hsub).length_le
  rw [List.length_map, List.length_range'] at hlen
  omega

theorem Admissible.cons {sec : InitSection} {older : List InitSection}
    (h : Admissible builtin (sec :: older)) :
    sec.tabid ∉ older.map (·.tabid) ∧ older.length + 2 ≤ 2 ^ 32 := by
  have hlen := h.length_lt
  rw [List.length_cons] at hlen
  exact ⟨(List.nodup_cons.mp h.nodup).1, by omega⟩

end Grows

section Loop

variable {num : Numbers} {others : BuiltinTable} {page : Option DBMeta}
  {secs final : List InitSection} {lines : List ByteString} {r : InitDataFileReader}
  {l l' : InitLoad} {files files' : VolatileFiles} {n : Nat}

theorem InitDataFileReader.TableOn.rows_eq {builtin : BuiltinTable} {line : ByteString} {sec : InitSection}
    (h : TableOn num builtin line sec) : sec.rows = [] := by
  obtain ⟨toks, -, hsec⟩ := h
  cases toks with
  | nil => cases hsec
  | cons tok toks =>
      obtain ⟨v, -, hsec⟩ := Option.bind_eq_some_iff.mp hsec
      obtain ⟨cols, -, hsec⟩ := Option.bind_eq_some_iff.mp hsec
      obtain ⟨s, -, hsec⟩ := Option.bind_eq_some_iff.mp hsec
      cases hsec
      rfl

theorem InitDataFileReader.TableOn.unique {builtin : BuiltinTable} {line : ByteString}
    {sec sec' : InitSection} (h : TableOn num builtin line sec)
    (h' : TableOn num builtin line sec') : sec' = sec := by
  obtain ⟨toks, htoks, hsec⟩ := h
  obtain ⟨toks', htoks', hsec'⟩ := h'
  rw [htoks] at htoks'
  cases htoks'
  rw [hsec] at hsec'
  exact (Option.some.inj hsec').symm

theorem InitDataFileReader.RowOn.unique {builtin : BuiltinTable} {s : Schema} {line : ByteString}
    {row row' : List Datum} (h : RowOn builtin s line row) (h' : RowOn builtin s line row') :
    row' = row := by
  obtain ⟨toks, htoks, hrow⟩ := h
  obtain ⟨toks', htoks', hrow'⟩ := h'
  rw [htoks] at htoks'
  cases htoks'
  rw [hrow] at hrow'
  exact (Option.some.inj hrow').symm

theorem Loads.table_line {builtin : BuiltinTable} {line : ByteString} {sec : InitSection}
    (hl : Admissible builtin secs → Loads page secs l files)
    (hadd : addLine num builtin secs line = some (sec :: secs)) (hsec : TableOn num builtin line sec)
    (htable : l.table sec.tabid = .ok l') :
    Admissible builtin (sec :: secs) → Loads page (sec :: secs) l' files := by
  intro hadm
  have hadm' := hadm.of_grows (.of_addLine hadd (.refl _))
  exact (hl hadm').table hadm'.valid hsec.rows_eq htable

theorem Loads.data_line {builtin : BuiltinTable} {line buf : ByteString} {sec : InitSection}
    {older : List InitSection} {row : List Datum}
    (hl : Admissible builtin (sec :: older) → Loads page (sec :: older) l files)
    (hadd : addLine num builtin (sec :: older) line = some (sec.addRow row :: older))
    (hrow : RowOn builtin sec.schema line row) (hbuf : Encodes sec.schema row buf)
    (hdata : l.data buf files = (.ok l', files')) :
    Admissible builtin (sec.addRow row :: older) →
      Loads page (sec.addRow row :: older) l' files' := by
  intro hadm
  have hadm' := hadm.of_grows (.of_addLine hadd (.refl _))
  obtain ⟨hnew, hcount⟩ := hadm'.cons
  obtain ⟨toks, -, hrow⟩ := hrow
  obtain ⟨hdvd, hlen⟩ := hadm'.sound sec List.mem_cons_self _ _ _ hrow hbuf
  rcases (hl hadm').data hnew hcount hbuf hdvd hlen with
    ⟨l₁, files₁, hdata', hloads⟩ | ⟨-, e, files₁, hdata'⟩
  · rw [hdata] at hdata'
    obtain ⟨rfl, rfl⟩ := ok_inj hdata'
    exact hloads
  · rw [hdata] at hdata'
    cases hdata'

/-- When the loop returns, the lines make sections, and each section that has rows has them in
a file of its own. -/
theorem loadLines_ok
    (hr : ReaderAt (findBuiltinFunction num others) r (secs.head?.map (·.schema)) lines)
    (hl : Admissible (findBuiltinFunction num others) secs → Loads page secs l files)
    (hrun : loadLines num (findBuiltinFunction num others) n r l files = (.ok l', files')) :
    ∃ final, lines.foldlM (addLine num (findBuiltinFunction num others)) secs = some final ∧
      (Admissible (findBuiltinFunction num others) final → Loads page final l' files') := by
  induction n generalizing secs lines r l files with
  | zero => cases hrun
  | succ n ih =>
      rw [loadLines] at hrun
      cases lines with
      | nil =>
          obtain ⟨r', hnext⟩ := next_eof num hr
          rw [hnext] at hrun
          obtain ⟨rfl, rfl⟩ := ok_inj hrun
          exact ⟨secs, rfl, hl⟩
      | cons line lines =>
          rcases hnext : next num (findBuiltinFunction num others) r with ⟨out, r'⟩
          rw [hnext] at hrun
          cases out with
          | error e => cases hrun
          | ok state =>
              rcases next_ok hr hnext with rfl | ⟨rfl, sec, hsec, htabid, hr'⟩ |
                ⟨rfl, s, row, hs, hrow, hbuf, hr'⟩
              · cases hrun
              · dsimp only at hrun
                obtain ⟨l₁, files₁, hlift, hrun⟩ := bind_eq_ok_iff.mp hrun
                obtain ⟨htable, rfl⟩ := Prod.mk.inj hlift
                rw [htabid] at htable
                have hadd : addLine num (findBuiltinFunction num others) secs line =
                    some (sec :: secs) := addLine_iff.mpr (Or.inl ⟨sec, hsec, rfl⟩)
                obtain ⟨final, hfinal, hloads⟩ := ih hr' (Loads.table_line hl hadd hsec htable) hrun
                refine ⟨final, ?_, hloads⟩
                rw [List.foldlM_cons, hadd]
                exact hfinal
              · obtain ⟨sec, hhead, rfl⟩ := Option.map_eq_some_iff.mp hs
                obtain ⟨older, rfl⟩ := List.head?_eq_some_iff.mp hhead
                dsimp only at hrun
                obtain ⟨l₁, files₁, hdata, hrun⟩ := bind_eq_ok_iff.mp hrun
                have hadd : addLine num (findBuiltinFunction num others) (sec :: older) line =
                    some (sec.addRow row :: older) :=
                  addLine_iff.mpr (Or.inr ⟨sec, older, row, rfl, hrow, rfl⟩)
                have hreader : ReaderAt (findBuiltinFunction num others) r'
                    ((sec.addRow row :: older).head?.map (·.schema)) lines := hr'
                obtain ⟨final, hfinal, hloads⟩ :=
                  ih hreader (Loads.data_line hl hadd hrow hbuf hdata) hrun
                refine ⟨final, ?_, hloads⟩
                rw [List.foldlM_cons, hadd]
                exact hfinal

structure Loadable (builtin : BuiltinTable) (final : List InitSection) : Prop where
  total : ∀ sec ∈ final, ∀ toks row, dataRow builtin sec.schema toks = some row →
    ∃ buf, Encodes sec.schema row buf
  older : ∀ sec ∈ final.tail, sec.rows ≠ []
  room : ∀ sec ∈ final, sec.rows.length ≤ 65534
  few : final.length + 1 < 2 ^ 32

theorem Grows.older_rows (h : Grows secs final) {sec : InitSection} {older : List InitSection}
    (hsecs : secs = sec :: older) (hall : ∀ sec ∈ final.tail, sec.rows ≠ []) :
    ∀ sec ∈ older, sec.rows ≠ [] := by
  obtain ⟨newer, sec', rfl, -⟩ := h sec older hsecs
  intro s hs
  refine hall s ?_
  cases newer with
  | nil => exact hs
  | cons new newer => exact List.mem_append_right _ (List.mem_cons_of_mem _ hs)

/-- The row of a data line has a payload, and there is room for it. -/
theorem Loadable.data_line {builtin : BuiltinTable} {line : ByteString} {sec : InitSection}
    {older : List InitSection} {row : List Datum} (hload : Loadable builtin final)
    (hgrows : Grows (sec.addRow row :: older) final) (hrow : RowOn builtin sec.schema line row) :
    (∃ buf, Encodes sec.schema row buf) ∧ sec.rows.length < 65534 ∧
      older.length + 2 < 2 ^ 32 := by
  obtain ⟨toks, -, hvalues⟩ := hrow
  obtain ⟨newer, sec', rfl, -, hschema, hrows⟩ := hgrows _ older rfl
  have hmem : sec' ∈ newer ++ sec' :: older := by simp
  have hbuf := hload.total sec' hmem toks row (by rw [hschema]; exact hvalues)
  rw [hschema] at hbuf
  have hle := hrows.length_le
  rw [InitSection.addRow, List.length_append, List.length_singleton] at hle
  have hroom := hload.room sec' hmem
  have hfew := hload.few
  rw [List.length_append, List.length_cons] at hfew
  exact ⟨hbuf, by omega, by omega⟩

theorem loadLines_succeeds
    (hr : ReaderAt (findBuiltinFunction num others) r (secs.head?.map (·.schema)) lines)
    (hl : Loads page secs l files)
    (hfold : lines.foldlM (addLine num (findBuiltinFunction num others)) secs = some final)
    (hadm : Admissible (findBuiltinFunction num others) final)
    (hload : Loadable (findBuiltinFunction num others) final) (hn : lines.length < n) :
    ∃ l' files', loadLines num (findBuiltinFunction num others) n r l files = (.ok l', files') := by
  induction n generalizing secs lines r l files with
  | zero => omega
  | succ n ih =>
      rw [loadLines]
      cases lines with
      | nil =>
          obtain ⟨r', hnext⟩ := next_eof num hr
          rw [hnext]
          exact ⟨l, files, rfl⟩
      | cons line lines =>
          rw [List.length_cons] at hn
          obtain ⟨secs', hadd, hrest⟩ := Option.bind_eq_some_iff.mp hfold
          have hgrows : Grows secs' final := .of_foldlM hrest
          have hadm' := hadm.of_grows (.of_addLine hadd hgrows)
          rcases addLine_iff.mp hadd with ⟨sec, hsec, rfl⟩ | ⟨sec, older, row, rfl, hrow, rfl⟩
          · obtain ⟨r', hnext⟩ := next_table hr hsec
            obtain ⟨l₁, htable⟩ := hl.table_succeeds (hgrows.older_rows rfl hload.older) sec.tabid
            rw [hnext]
            rcases next_ok hr hnext with hstate | ⟨-, sec', hsec', htabid, hr'⟩ | ⟨hstate, -⟩
            · cases hstate
            · obtain rfl := hsec.unique hsec'
              dsimp only
              rw [htabid, htable, bind_of_ok (ofExcept_apply _ _)]
              have hloads := hl.table hadm'.valid hsec.rows_eq htable
              have hreader : ReaderAt (findBuiltinFunction num others) r'
                  ((sec' :: secs).head?.map (·.schema)) lines := hr'
              exact ih hreader hloads hrest (by omega)
            · cases hstate
          · obtain ⟨⟨buf, hbuf⟩, hroom, hfew⟩ := hload.data_line hgrows hrow
            obtain ⟨r', hnext⟩ := next_data hr hrow hbuf
            rw [hnext]
            rcases next_ok hr hnext with hstate | ⟨hstate, -⟩ |
              ⟨-, s, row', hs, hrow', hbuf', hr'⟩
            · cases hstate
            · cases hstate
            cases hs
            obtain rfl := hrow.unique hrow'
            obtain ⟨hnew, hcount⟩ := hadm'.cons
            obtain ⟨toks, -, hvalues⟩ := hrow
            obtain ⟨hdvd, hlen⟩ := hadm'.sound sec List.mem_cons_self _ _ _ hvalues hbuf'
            dsimp only
            rcases hl.data hnew hcount hbuf' hdvd hlen with
              ⟨l₁, files₁, hdata, hloads⟩ | ⟨hfull, -⟩
            · rw [bind_of_ok hdata]
              have hreader : ReaderAt (findBuiltinFunction num others) r'
                  ((sec.addRow row' :: older).head?.map (·.schema)) lines := hr'
              exact ih hreader hloads hrest (by omega)
            · omega

theorem readerAt_construct (builtin : BuiltinTable) (text : ByteString) (lineno tabid : Nat) :
    ReaderAt builtin (.construct (.ofText text) lineno tabid) none (fileLines text) :=
  ⟨by simp [construct], rfl, rfl, rfl, fun _ _ h => (nomatch h), fun _ h => (nomatch h)⟩

theorem loads_nil (page : Option DBMeta) :
    Loads page [] { tabid := invalidOid, fid := invalidFid, tabid2fid := fun _ => none }
      { systables := [], dbmetaPage := page } :=
  ⟨⟨fun _ h => (nomatch h), rfl, rfl, by decide, fun _ _ h => (nomatch h), fun _ _ _ h => (nomatch h),
    fun _ _ h => (nomatch h), fun _ h => (nomatch h)⟩, fun _ h => (nomatch h), rfl, rfl⟩

variable {text : ByteString} {lineno tabid : Nat} {tabid2fid : Nat → Option Nat}

/-- When `LoadInitFile` returns, the file consists of sections, and each section that has rows
has them in a file of its own. -/
theorem loadInitFile_ok
    (hrun : loadInitFile num (findBuiltinFunction num others) (.ofText text) lineno tabid
      { systables := [], dbmetaPage := page } = (.ok tabid2fid, files')) :
    ∃ final, initSections num (findBuiltinFunction num others) text = some final ∧
      (Admissible (findBuiltinFunction num others) final →
        FilesOf page (final.filter fun sec => sec.rows ≠ []) tabid2fid files') := by
  obtain ⟨l, files₁, hloop, hret⟩ := bind_eq_ok_iff.mp hrun
  obtain ⟨rfl, rfl⟩ := ok_inj hret
  obtain ⟨final, hfinal, hloads⟩ := loadLines_ok (readerAt_construct _ text lineno tabid)
    (fun _ => loads_nil page) hloop
  exact ⟨final, hfinal, fun hadm => (hloads hadm).files⟩

theorem loadInitFile_succeeds
    (hfinal : initSections num (findBuiltinFunction num others) text = some final)
    (hadm : Admissible (findBuiltinFunction num others) final)
    (hload : Loadable (findBuiltinFunction num others) final) :
    ∃ tabid2fid files', loadInitFile num (findBuiltinFunction num others) (.ofText text) lineno
      tabid { systables := [], dbmetaPage := page } = (.ok tabid2fid, files') := by
  have hn : (fileLines text).length < text.length + 2 := by
    have := length_fileLines text
    omega
  obtain ⟨l, files', hloop⟩ := loadLines_succeeds
    (readerAt_construct _ text lineno tabid) (loads_nil page) hfinal hadm hload hn
  exact ⟨l.tabid2fid, files', bind_of_ok hloop _⟩

theorem forall_sections {builtin : BuiltinTable} {P : InitSection → Prop}
    (htable : ∀ line sec, TableOn num builtin line sec → P sec)
    (hrow : ∀ sec line row, P sec → RowOn builtin sec.schema line row → P (sec.addRow row))
    (h : initSections num builtin text = some final) : ∀ sec ∈ final, P sec := by
  have hall : ∀ (lines : List ByteString) (secs : List InitSection), (∀ sec ∈ secs, P sec) →
      lines.foldlM (addLine num builtin) secs = some final → ∀ sec ∈ final, P sec := by
    intro lines
    induction lines with
    | nil =>
        rintro secs hsecs ⟨⟩
        exact hsecs
    | cons line lines ih =>
        intro secs hsecs h
        obtain ⟨secs', hadd, hrest⟩ := Option.bind_eq_some_iff.mp h
        refine ih secs' ?_ hrest
        rcases addLine_iff.mp hadd with ⟨sec, hsec, rfl⟩ | ⟨sec, older, row, rfl, hon, rfl⟩
        · intro s hs
          rcases List.mem_cons.mp hs with rfl | hs
          · exact htable line s hsec
          · exact hsecs s hs
        · intro s hs
          rcases List.mem_cons.mp hs with rfl | hs
          · exact hrow sec line row (hsecs sec List.mem_cons_self) hon
          · exact hsecs s (List.mem_cons_of_mem _ hs)
  exact hall (fileLines text) [] (fun _ h => nomatch h) h

end Loop

end Taco
