import TacoDB.Catalog.AddEffects

/-!
# The object identifiers of a run

`AddTable` and `AddIndex` take an object identifier from the meta page before they insert a row,
and they do not give it back when they fail. Over a whole run the identifiers that they return
increase, so none is used for two objects.
-/

namespace Taco

open Eff Initoids CatCache Run

section Steps

variable {builtin : BuiltinTable} {c : Content} {st : CatCache} {α : Type}

theorem nextOid_of_page {st' : CatCache} (h : st'.files.dbmetaPage = st.files.dbmetaPage) :
    st'.files.nextOid = st.files.nextOid := by
  rw [VolatileFiles.nextOid, VolatileFiles.nextOid, h]

theorem insertCatalogEntries_nextOid (kind : InsertKind α) (hcmp : builtin.Compares) (n : Nat)
    (h : Holding builtin c st) {l : List α} (hfresh : ∀ a ∈ l, Fresh st.files (kind.oid a)) :
    (insertCatalogEntries (findTableDesc builtin (n + 2)) kind.systabid (l.map kind.vector)
      st).2.files.nextOid = st.files.nextOid := by
  rcases insertCatalogEntries_spec kind hcmp n h hfresh with
    ⟨-, st', hst', hrun⟩ | ⟨l₁, a, l₂, -, -, -, e, st', hst', hrun⟩
  · rw [hrun]
    exact nextOid_of_page hst'.page
  · rw [hrun]
    exact nextOid_of_page hst'.page

theorem allocateOid_nextOid (h : Holding builtin c st) (hissued : ¬ Exhausted st.files) :
    (allocateOid st).2.files.nextOid = st.files.nextOid + 1 := by
  obtain ⟨page, hpage, hsys, hmax, -⟩ := h.stores.next
  have hnext : st.files.nextOid = page.nextOid := by
    rw [VolatileFiles.nextOid, hpage]
    rfl
  have hopen : onFiles (openCatalogFile 1) st = (.ok 1, st) := by
    rw [onFiles, openCatalogFile, bind_of_ok (getState_apply _),
      if_neg (by unfold invalidFid; omega)]
    rfl
  rw [Exhausted, hnext, Nat.not_lt] at hissued
  unfold allocateOid
  rw [bind_of_ok hopen, bind_of_ok (getState_apply st), hpage, hnext]
  dsimp only
  rw [if_neg (by omega)]
  exact Nat.mod_eq_of_lt (by unfold maxOid at hissued; omega)

/-- At most one identifier is taken, and it is the one that is returned. -/
structure TakesOid (st : CatCache) (out : Except Failure Nat × CatCache) : Prop where
  returned : ∀ oid, out.1 = .ok oid → oid = st.files.nextOid ∧ out.2.files.nextOid = oid + 1
  atMost : st.files.nextOid ≤ out.2.files.nextOid ∧ out.2.files.nextOid ≤ st.files.nextOid + 1

theorem TakesOid.of_error {e : Failure} {st' : CatCache}
    (h : st'.files.nextOid = st.files.nextOid ∨ st'.files.nextOid = st.files.nextOid + 1) :
    TakesOid st (.error e, st') :=
  ⟨fun oid hoid => (by cases hoid), by dsimp only; omega⟩

theorem addRows_takesOid {β : Type} {p : InsertKind α} {q : InsertKind β}
    (hcmp : builtin.Compares) (n : Nat) (h : Holding builtin c st) (row : Nat → α)
    (rows : Nat → List β) (hrow : ∀ oid, p.oid (row oid) = oid)
    (hrows : ∀ oid, ∀ b ∈ rows oid, q.oid b = oid) :
    TakesOid st ((allocateOid >>= fun oid =>
      if oid = invalidOid then logError "run out of valid Oid"
      else
        insertCatalogEntries (findTableDesc builtin (n + 2)) p.systabid [p.vector (row oid)] >>=
          fun _ => insertCatalogEntries (findTableDesc builtin (n + 2)) q.systabid
            ((rows oid).map q.vector) >>= fun _ => pure oid) st) := by
  rcases allocateOid_spec h with ⟨hex, halloc⟩ | ⟨hex, st₂, hoid, halloc⟩
  · rw [bind_of_ok halloc, if_pos rfl]
    exact .of_error (.inl rfl)
  have hnext := allocateOid_nextOid h hex
  rw [halloc] at hnext
  have hvalid : st.files.nextOid ≠ invalidOid := by
    have := hoid.fresh.1
    unfold invalidOid
    omega
  rw [bind_of_ok halloc, if_neg hvalid]
  have hfresh : Fresh st₂.files (p.oid (row st.files.nextOid)) := by
    rw [hrow]
    exact hoid.fresh
  rcases insertCatalogEntries_row p hcmp n hoid.holding hfresh with
    ⟨-, st₃, hst₃, hinsert⟩ | ⟨-, e, st₃, hst₃, hinsert⟩
  · rw [bind_of_ok hinsert]
    have hfresh₃ : ∀ b ∈ rows st.files.nextOid, Fresh st₃.files (q.oid b) := by
      intro b hb
      rw [hrows _ b hb, Fresh, hst₃.page]
      exact hoid.fresh
    have hnext₃ := insertCatalogEntries_nextOid q hcmp n hst₃.holding hfresh₃
    rw [nextOid_of_page hst₃.page] at hnext₃
    rcases hrest : insertCatalogEntries (findTableDesc builtin (n + 2)) q.systabid
      ((rows st.files.nextOid).map q.vector) st₃ with ⟨e | u, st₄⟩
    · rw [hrest] at hnext₃
      rw [bind_of_error hrest]
      exact .of_error (.inr (hnext₃.trans hnext))
    · rw [hrest] at hnext₃
      rw [bind_of_ok hrest]
      have hnext₄ : st₄.files.nextOid = st.files.nextOid + 1 := hnext₃.trans hnext
      constructor
      · intro oid hout
        cases hout
        exact ⟨rfl, hnext₄⟩
      · change _ ≤ st₄.files.nextOid ∧ st₄.files.nextOid ≤ _
        omega
  · rw [bind_of_error hinsert]
    exact .of_error (.inr ((nextOid_of_page hst₃.page).trans hnext))

end Steps

section Calls

variable {builtin : BuiltinTable} {c : Content} {st : CatCache}

theorem TakesOid.of_files_eq {st₁ : CatCache} {out : Except Failure Nat × CatCache}
    (h : TakesOid st₁ out) (hfiles : st₁.files = st.files) : TakesOid st out := by
  obtain ⟨hreturned, hatMost⟩ := h
  rw [hfiles] at hreturned hatMost
  exact ⟨hreturned, hatMost⟩

theorem Holding.takesOid_bind (h : Holding builtin c st) {β : Type} {x : Eff Failure CatCache β}
    {y : Except Failure β} (hx : Computes (Coherent builtin true st.files c) x y)
    {f : β → Eff Failure CatCache Nat}
    (hf : ∀ b st', Holding builtin c st' → st'.files = st.files → TakesOid st' (f b st')) :
    TakesOid st ((x >>= f) st) := by
  obtain ⟨st', hrun, hfiles, hst'⟩ := h.computes hx
  cases y with
  | error e =>
      rw [bind_of_error hrun]
      exact .of_error (.inl (by rw [hfiles]))
  | ok b =>
      rw [bind_of_ok hrun]
      exact (hf b st' hst' hfiles).of_files_eq hfiles

theorem addTable_takesOid (hcmp : builtin.Compares) (n : Nat) (h : Holding builtin c st)
    (args : AddTableArgs) :
    TakesOid st (addTable builtin (findTableDesc builtin (n + 2)) args st) := by
  unfold addTable
  refine h.takesOid_bind (.lift _) fun a st₀ hst₀ _ => ?_
  refine hst₀.takesOid_bind (checkTypes_computes hcmp hst₀.stores
    (answers_findTableDesc hcmp hst₀.stores n (by decide)) _) fun u st₁ hst₁ _ => ?_
  by_cases hnum : a.numFields < 0
  · rcases allocateOid_spec hst₁ with ⟨-, halloc⟩ | ⟨hex, st₂, hoid, halloc⟩
    · rw [bind_of_ok halloc, if_pos rfl]
      exact .of_error (.inl rfl)
    · have hnext := allocateOid_nextOid hst₁ hex
      rw [halloc] at hnext
      have hvalid : st₁.files.nextOid ≠ invalidOid := by
        have := hoid.fresh.1
        unfold invalidOid
        omega
      rw [bind_of_ok halloc, if_neg hvalid, if_pos hnum]
      exact .of_error (.inr hnext)
  · simp only [if_neg hnum]
    refine addRows_takesOid (p := .table) (q := .column) hcmp n hst₁ a.tableRow a.columnRows
      (fun _ => rfl) fun oid col hcol => ?_
    obtain ⟨i, -, rfl⟩ := List.mem_map.mp hcol
    rfl

theorem addIndex_takesOid [StrJoin] (hcmp : builtin.Compares) (n : Nat) (h : Holding builtin c st)
    (args : AddIndexArgs) :
    TakesOid st (addIndex builtin (findTableDesc builtin (n + 2)) args st) := by
  unfold addIndex
  refine h.takesOid_bind (findTableDesc_computes hcmp h.stores n args.idxtabid)
    fun desc? st₁ hst₁ _ => ?_
  cases desc? with
  | none => exact .of_error (.inl rfl)
  | some tabdesc =>
      refine hst₁.takesOid_bind (.lift _) fun idxname st₂ hst₂ _ => ?_
      refine hst₂.takesOid_bind (.lift _) fun u st₃ hst₃ _ => ?_
      have hfd := fun k (hk : k ∈ systabids) => answers_findTableDesc hcmp hst₃.stores n hk
      refine hst₃.takesOid_bind (checkKeyColumns_computes hcmp hst₃.stores hfd tabdesc.schema
        args.idxtyp args.keys) fun keys st₄ hst₄ _ => ?_
      refine addRows_takesOid (p := .index) (q := .indexColumn) hcmp n hst₄
        (args.indexRow · idxname) (indexColumnRows · keys) (fun _ => rfl) fun oid col hcol => ?_
      obtain ⟨k, -, rfl⟩ := List.mem_map.mp hcol
      rfl

end Calls

def CatCall.returned [StrJoin] (builtin : BuiltinTable) (n : Nat)
    (st : CatCache) : CatCall → Option Nat
  | .addTable args =>
      (CatCache.addTable builtin (CatCache.findTableDesc builtin n) args st).1.toOption
  | .addIndex args =>
      (CatCache.addIndex builtin (CatCache.findTableDesc builtin n) args st).1.toOption
  | _ => none

def returnedOids [StrJoin] (builtin : BuiltinTable) (n : Nat) (st : CatCache)
    (calls : List CatCall) :
    List Nat :=
  outputs (CatCache.callStep builtin n) (fun st call => call.returned builtin n st) st calls

section Runs

variable {builtin : BuiltinTable} {c : Content} {st : CatCache}

theorem TakesOid.of_toOption {out : Except Failure Nat × CatCache} (h : TakesOid st out) {oid : Nat}
    (hoid : out.1.toOption = some oid) : oid = st.files.nextOid ∧ out.2.files.nextOid = oid + 1 := by
  obtain ⟨e | n, st'⟩ := out
  · cases hoid
  · cases hoid
    exact h.returned _ rfl

theorem callStep_addTable [StrJoin] (builtin : BuiltinTable) (n : Nat) (st : CatCache)
    (args : AddTableArgs) :
    CatCache.callStep builtin n st (.addTable args) =
      (addTable builtin (findTableDesc builtin n) args st).2 :=
  snd_bind_pure _ st

theorem callStep_addIndex [StrJoin] (builtin : BuiltinTable) (n : Nat) (st : CatCache)
    (args : AddIndexArgs) :
    CatCache.callStep builtin n st (.addIndex args) =
      (addIndex builtin (findTableDesc builtin n) args st).2 :=
  snd_bind_pure _ st

theorem Holding.callStep_nextOid [StrJoin] (hcmp : builtin.Compares) (h : Holding builtin c st)
    {call : CatCall} (hcall : call.FindsOrAdds) (n : Nat) :
    st.files.nextOid ≤ (CatCache.callStep builtin (n + 2) st call).files.nextOid ∧
      ∀ oid, call.returned builtin (n + 2) st = some oid →
        oid = st.files.nextOid ∧
          (CatCache.callStep builtin (n + 2) st call).files.nextOid = oid + 1 := by
  rcases CatCall.finds_or_adds hcall with hfinds | ⟨args, rfl⟩ | ⟨args, rfl⟩
  · obtain ⟨hfiles, -⟩ := h.find hcmp hfinds n
    rw [hfiles]
    refine ⟨le_rfl, fun oid hoid => ?_⟩
    cases call with
    | addTable args => exact hfinds.elim
    | addIndex args => exact hfinds.elim
    | _ => cases hoid
  · have htakes := addTable_takesOid hcmp n h args
    rw [callStep_addTable]
    exact ⟨htakes.atMost.1, fun oid hoid => htakes.of_toOption hoid⟩
  · have htakes := addIndex_takesOid hcmp n h args
    rw [callStep_addIndex]
    exact ⟨htakes.atMost.1, fun oid hoid => htakes.of_toOption hoid⟩

end Runs

section Reached

variable {num : Numbers} {others : BuiltinTable} {st : CatCache}

/-- The identifiers that `AddTable` and `AddIndex` return in a run, failing calls included, increase.
They are no identifiers of the catalog, nor of a table or an index that was there, and when there
is no identifier left nothing is added any more. -/
theorem Reached.returned_increasing [StrJoin] (hnum : num.InRange) (h : Reached num others st)
    (depth : Nat) {calls : List CatCall} (hcalls : ∀ call ∈ calls, call.FindsOrAdds) :
    (returnedOids (findBuiltinFunction num others) (depth + 2) st calls).Pairwise (· < ·) ∧
    (∀ oid ∈ returnedOids (findBuiltinFunction num others) (depth + 2) st calls,
      maxSysOid < oid ∧ oid ≤ maxOid ∧ (∀ r ∈ st.content.tables, r.tabid < oid) ∧
        ∀ r ∈ st.content.indexes, r.idxid < oid) ∧
    (Exhausted st.files →
      returnedOids (findBuiltinFunction num others) (depth + 2) st calls = []) := by
  have hcmp := findBuiltinFunction_compares num others
  have hmono : ∀ st call, Reached num others st → call.FindsOrAdds → st.files.nextOid ≤
      (CatCache.callStep (findBuiltinFunction num others) (depth + 2) st call).files.nextOid :=
    fun st call hst hcall => ((hst.holding hnum).1.callStep_nextOid hcmp hcall depth).1
  have hout : ∀ st call oid, Reached num others st → call.FindsOrAdds →
      call.returned (findBuiltinFunction num others) (depth + 2) st = some oid →
        st.files.nextOid ≤ oid ∧ oid <
          (CatCache.callStep (findBuiltinFunction num others) (depth + 2) st call).files.nextOid := by
    intro st call oid hst hcall hoid
    obtain ⟨heq, hnext⟩ := ((hst.holding hnum).1.callStep_nextOid hcmp hcall depth).2 oid hoid
    omega
  obtain ⟨hpairwise, -, hrange⟩ := outputs_increasing
    (fun st call hst hcall => .called hst hcall depth) hmono hout h hcalls
  have hst := (h.holding hnum).1
  obtain ⟨c', -, hst'⟩ := hst.calls hcmp depth hcalls
  obtain ⟨page, hpage, hsys, -, hissued⟩ := hst.stores.next
  obtain ⟨page', hpage', -, hmax, -⟩ := hst'.stores.next
  have hnext : st.files.nextOid = page.nextOid := by
    rw [VolatileFiles.nextOid, hpage]
    rfl
  have hnext' : (run (CatCache.callStep (findBuiltinFunction num others) (depth + 2)) st
      calls).files.nextOid = page'.nextOid := by
    rw [VolatileFiles.nextOid, hpage']
    rfl
  rw [hnext, hnext'] at hrange
  refine ⟨hpairwise, fun oid hoid => ?_, fun hexhausted => ?_⟩
  · have hoid := hrange oid hoid
    refine ⟨by omega, by omega, fun r hr => ?_, fun r hr => ?_⟩
    · have := hissued.tables r hr
      omega
    · have := hissued.indexes r hr
      omega
  · rw [Exhausted, hnext] at hexhausted
    refine List.eq_nil_iff_forall_not_mem.mpr fun oid hoid => ?_
    have hoid := hrange oid hoid
    omega

def sampleCalls : List CatCall :=
  [.addTable sampleTableArgs, .addTable ⟨[], [], [], [], [], [], 0⟩, .addTable sampleTableArgs]

section

attribute [local instance] documentedStrJoin

theorem Reached.returned_increasing_sample :
    (returnedOids documentedBuiltins 2 sampleState sampleCalls).Pairwise (· < ·) ∧
    (∀ oid ∈ returnedOids documentedBuiltins 2 sampleState sampleCalls,
      maxSysOid < oid ∧ oid ≤ maxOid ∧ (∀ r ∈ sampleState.content.tables, r.tabid < oid) ∧
        ∀ r ∈ sampleState.content.indexes, r.idxid < oid) ∧
    (Exhausted sampleState.files →
      returnedOids documentedBuiltins 2 sampleState sampleCalls = []) := by
  refine sampleState_reached.returned_increasing documentedNumbers_inRange 0 fun call hcall => ?_
  simp only [sampleCalls, List.mem_cons, List.not_mem_nil, or_false] at hcall
  rcases hcall with rfl | rfl | rfl
  all_goals trivial

end

end Reached

end Taco
