import TacoDB.Catalog.IssuedOids
import TacoDB.Catalog.KeyColumns

/-!
# Additions that fail

`AddTable` and `AddIndex` insert the row of the new table or index before the rows of its columns,
and take nothing back when one of those cannot be inserted. When they raise an error, the records
of the systables are those before the call exactly when the error does not come in between.
-/

namespace Taco

open Eff Initoids CatCache Schema

def CatCache.recordsOf (st : CatCache) (systabid : Nat) : List ByteString :=
  (st.files.file? (st.content.fidOf systabid)).elim [] (·.records)

structure Content.Whole (c : Content) : Prop where
  tables : ∀ r ∈ c.tables, ((c.columnsOf r.tabid).length : Int) = r.tabncols
  indexes : ∀ r ∈ c.indexes, ((c.indexColumnsOf r.idxid).length : Int) = r.idxncols

/-- When the call raises an error, the live records of the systables are those before it, and no
table or index has lost columns. -/
def LeavesRecords (st : CatCache) (out : Except Failure Nat × CatCache) : Prop :=
  ∀ e st', out = (.error e, st') →
    (∀ k ∈ systabids, st'.recordsOf k = st.recordsOf k) ∧
      (st.content.Whole → st'.content.Whole)

section Effect

variable {α β : Type} {p : InsertKind α} {q : InsertKind β} {accepted : Prop} {st : CatCache}
  {a : α} {l : List β} {out : Except Failure Nat × CatCache}

/-- The row `a` is inserted, but there is no room for one of the rows `l`. -/
def StopsMidway (p : InsertKind α) (q : InsertKind β) (accepted : Prop) (st : CatCache) (a : α)
    (l : List β) : Prop :=
  accepted ∧ ¬ Exhausted st.files ∧ FitsIn p st.content 0 a ∧
    ∃ (i : Nat) (b : β), l[i]? = some b ∧ ¬ FitsIn q st.content i b

theorem Unchanged.leavesRecords {st' : CatCache} {e : Failure} (h : Unchanged st st') :
    LeavesRecords st (.error e, st') := by
  intro e' st'' heq
  cases heq
  refine ⟨fun k _ => ?_, fun hwhole => ?_⟩
  · rw [recordsOf, recordsOf, h.content, h.file]
  · rw [h.content]
    exact hwhole

theorem Holding.length_recordsOf {builtin : BuiltinTable}
    (h : Holding builtin st.content st) {k : Nat} (hk : k ∈ systabids) :
    (st.recordsOf k).length = (st.content.rows k).length := by
  obtain ⟨f, hf, hrows⟩ := h.stores.holds k hk
  have hlength := congrArg List.length hrows.rows_eq
  rw [List.length_map] at hlength
  rw [recordsOf, hf, Option.elim_some, hlength]

theorem length_rows_push {c : Content} {a : α} {l : List β} (hne : p.systabid ≠ q.systabid) :
    ((q.push (p.push c [a]) l).rows p.systabid).length = (c.rows p.systabid).length + 1 := by
  rw [q.rows_push _ _ _ p.mem hne, p.rows_eq, p.rows_eq, p.list_push, List.map_append,
    List.length_append, List.length_map]
  rfl

theorem AddEffect.leavesRecords_iff {builtin : BuiltinTable}
    (h : AddEffect p q accepted st a l out) (hne : p.systabid ≠ q.systabid)
    (hst : Holding builtin st.content st) (hout : Holding builtin out.2.content out.2) :
    LeavesRecords st out ↔ ¬ StopsMidway p q accepted st a l := by
  cases h with
  | nothing hrefused hsame =>
      refine iff_of_true hsame.leavesRecords ?_
      rintro ⟨hacc, hissued, hrow, -⟩
      rcases hrefused with hnot | hex | hnot
      · exact hnot hacc
      · exact hissued hex
      · exact hnot hrow
  | everything _ _ _ hrest _ =>
      refine iff_of_true (fun e st' heq => by cases heq) ?_
      rintro ⟨-, -, -, i, b, hb, hnot⟩
      exact hnot (hrest i b hb)
  | @part e st' n b hacc hissued hrow _ hnext hadded =>
      refine iff_of_false (fun hleaves => ?_) (not_not_intro
        ⟨hacc, hissued, hrow, n, b, hnext⟩)
      -- the row that was inserted first is still there
      have hsame := (hleaves e st' rfl).1 p.systabid p.mem
      have hbefore := hst.length_recordsOf p.mem
      have hafter := hout.length_recordsOf p.mem
      dsimp only at hafter
      rw [hsame, hbefore, hadded, length_rows_push hne] at hafter
      omega

end Effect

section Reached

variable {num : Numbers} {others : BuiltinTable} {st : CatCache}

theorem Reached.addTable_leavesRecords_iff [StrJoin] (hnum : num.InRange)
    (h : Reached num others st) (n : Nat) (args : AddTableArgs) :
    LeavesRecords st (addTable (findBuiltinFunction num others)
      (findTableDesc (findBuiltinFunction num others) (n + 2)) args st) ↔
    ¬ StopsMidway .table .column (args.Accepted args.filled st.content) st
      (args.filled.tableRow st.files.nextOid) (args.filled.columnRows st.files.nextOid) := by
  have hcall : (CatCall.addTable args).FindsOrAdds := trivial
  have hout := Reached.called h hcall n
  rw [callStep_addTable] at hout
  exact (h.addTable_effect hnum n args).leavesRecords_iff (by decide) (h.holding hnum).1
    (hout.holding hnum).1

theorem Reached.addIndex_leavesRecords_iff [StrJoin] (hnum : num.InRange)
    (h : Reached num others st) (n : Nat) (args : AddIndexArgs) :
    LeavesRecords st (addIndex (findBuiltinFunction num others)
      (findTableDesc (findBuiltinFunction num others) (n + 2)) args st) ↔
    ∀ desc, (findTableDesc (findBuiltinFunction num others) (n + 2) args.idxtabid st).1 =
        .ok (some desc) →
      ¬ StopsMidway .index .indexColumn (st.content.AcceptsIndex desc args) st
        (args.indexRow st.files.nextOid (args.nameFor desc))
        (indexColumnRows st.files.nextOid (st.content.keyColumns desc args)) := by
  have hcall : (CatCall.addIndex args).FindsOrAdds := trivial
  have hout := Reached.called h hcall n
  rw [callStep_addIndex] at hout
  obtain ⟨heffect, hnone⟩ := h.addIndex_effect hnum n args
  by_cases hdesc : ∃ desc, (findTableDesc (findBuiltinFunction num others) (n + 2)
      args.idxtabid st).1 = .ok (some desc)
  · obtain ⟨desc, hdesc⟩ := hdesc
    have hiff := (heffect desc hdesc).leavesRecords_iff (by decide) (h.holding hnum).1
      (hout.holding hnum).1
    rw [hiff]
    refine ⟨fun hnot desc' hdesc' => ?_, fun hnot => hnot desc hdesc⟩
    rw [hdesc] at hdesc'
    cases hdesc'
    exact hnot
  · rw [not_exists] at hdesc
    obtain ⟨e, st', hrun, hsame⟩ := hnone hdesc
    rw [hrun]
    exact iff_of_true hsame.leavesRecords fun desc hdesc' => absurd hdesc' (hdesc desc)

/-- In every state that is reached a call of `AddTable` or `AddIndex` that raises an error leaves
the records of the systables as they are, exactly when it does not stop between the row of the
table or index and those of its columns. -/
theorem Reached.failed_leavesRecords_iff [StrJoin] (hnum : num.InRange) (h : Reached num others st)
    (n : Nat) :
    (∀ args : AddTableArgs,
      LeavesRecords st (addTable (findBuiltinFunction num others)
        (findTableDesc (findBuiltinFunction num others) (n + 2)) args st) ↔
      ¬ StopsMidway .table .column (args.Accepted args.filled st.content) st
        (args.filled.tableRow st.files.nextOid) (args.filled.columnRows st.files.nextOid)) ∧
    ∀ args : AddIndexArgs,
      LeavesRecords st (addIndex (findBuiltinFunction num others)
        (findTableDesc (findBuiltinFunction num others) (n + 2)) args st) ↔
      ∀ desc, (findTableDesc (findBuiltinFunction num others) (n + 2) args.idxtabid st).1 =
          .ok (some desc) →
        ¬ StopsMidway .index .indexColumn (st.content.AcceptsIndex desc args) st
          (args.indexRow st.files.nextOid (args.nameFor desc))
          (indexColumnRows st.files.nextOid (st.content.keyColumns desc args)) :=
  ⟨h.addTable_leavesRecords_iff hnum n, h.addIndex_leavesRecords_iff hnum n⟩

section

attribute [local instance] documentedStrJoin

/-- The calls in the sample. -/
theorem Reached.failed_leavesRecords_iff_sample :
    (∀ args : AddTableArgs,
      LeavesRecords sampleState
        (addTable documentedBuiltins (findTableDesc documentedBuiltins 2) args sampleState) ↔
      ¬ StopsMidway .table .column (args.Accepted args.filled sampleState.content) sampleState
        (args.filled.tableRow sampleState.files.nextOid)
        (args.filled.columnRows sampleState.files.nextOid)) ∧
    ∀ args : AddIndexArgs,
      LeavesRecords sampleState
        (addIndex documentedBuiltins (findTableDesc documentedBuiltins 2) args sampleState) ↔
      ∀ desc, (findTableDesc documentedBuiltins 2 args.idxtabid sampleState).1 =
          .ok (some desc) →
        ¬ StopsMidway .index .indexColumn (sampleState.content.AcceptsIndex desc args) sampleState
          (args.indexRow sampleState.files.nextOid (args.nameFor desc))
          (indexColumnRows sampleState.files.nextOid
            (sampleState.content.keyColumns desc args)) :=
  sampleState_reached.failed_leavesRecords_iff documentedNumbers_inRange 0

end

def secondNameArgs (name : ByteString) : AddTableArgs :=
  { sampleTableArgs with fieldNames := [ascii "id", name] }

theorem secondName_stopsMidway {name : ByteString} (hlen : name.length = 32760) :
    StopsMidway .table .column
      ((secondNameArgs name).Accepted (secondNameArgs name).filled sampleState.content) sampleState
      ((secondNameArgs name).filled.tableRow sampleState.files.nextOid)
      ((secondNameArgs name).filled.columnRows sampleState.files.nextOid) := by
  obtain ⟨fidOf, hst, -, hnext⟩ := sampleState_holding
  have hsized : (secondNameArgs name).Sized :=
    ⟨show sampleTableArgs.tabfid ≠ invalidFid by decide,
      show 0 < sampleTableArgs.coltypid.length ∧ sampleTableArgs.coltypid.length ≤ 32767 by decide,
      .inr rfl, .inr rfl, .inr rfl, .inl rfl⟩
  have hacc : (secondNameArgs name).Accepted (secondNameArgs name).filled sampleContent :=
    ⟨hsized.checkSizes, sampleTableArgs_fitsSample.accepted.types,
      sampleTableArgs_fitsSample.accepted.number⟩
  have htables : (sampleState.content.rows tabTable).length = 8 := by
    rw [hst.content_eq]
    rfl
  have hissued : ¬ Exhausted sampleState.files := by
    rw [Exhausted, hnext]
    decide
  have hnum : (secondNameArgs name).filled.numFields = 2 :=
    show toFieldOffset 2 = 2 by decide
  have hsecond : ((secondNameArgs name).filled.columnRows (maxSysOid + 1))[1]? =
      some ((secondNameArgs name).filled.columnRow (maxSysOid + 1) 1) := by
    rw [AddTableArgs.columnRows, hnum]
    rfl
  have hbegin : 0 < (systableSchema tabColumn).varlenPayloadBegin := by decide +kernel
  have hsize : nameSize (nameColumn tabColumn)
      ((secondNameArgs name).filled.columnRow (maxSysOid + 1) 1).getDatumVector = 32760 := by
    have hdatum : ((secondNameArgs name).filled.columnRow (maxSysOid + 1) 1).getDatumVector.getD 6
      .null = Datum.fromVarlenBytes name := rfl
    rw [nameSize, show nameColumn tabColumn = some 6 from rfl, Option.elim_some, hdatum,
      Datum.getVarlenSize, Datum.getVarlenBytes_fromVarlenBytes (by omega), hlen]
    exact toFieldOffset_of_mem (by decide) (by decide)
  have hrow : (secondNameArgs name).filled.tableRow (maxSysOid + 1) =
      sampleTableArgs.filled.tableRow (maxSysOid + 1) := rfl
  rw [hnext, hrow]
  refine ⟨hacc.sampleState, hissued, ⟨sampleTableArgs_fitsSample.row, ?_⟩, 1, _, hsecond,
    fun hfits => ?_⟩
  · change (sampleState.content.rows tabTable).length + 0 < 65534
    omega
  · have hle : (systableSchema tabColumn).varlenPayloadBegin +
      nameSize (nameColumn tabColumn)
        ((secondNameArgs name).filled.columnRow (maxSysOid + 1) 1).getDatumVector ≤ 32760 :=
      hfits.1.2
    omega

section

attribute [local instance] documentedStrJoin

/-- The row of the table stays when there is no room for the name of a column. -/
theorem longName_leavesTable : ∃ e st',
    addTable documentedBuiltins (findTableDesc documentedBuiltins 2)
      (secondNameArgs (List.replicate 32760 0x61)) sampleState = (.error e, st') ∧
    ¬ LeavesRecords sampleState (.error e, st') := by
  generalize hname : List.replicate 32760 (0x61 : Byte) = name
  have hlen : name.length = 32760 := by rw [← hname, List.length_replicate]
  have hnot := (sampleState_reached.addTable_leavesRecords_iff documentedNumbers_inRange 0
    (secondNameArgs name)).not.mpr (not_not_intro (secondName_stopsMidway hlen))
  change ¬ LeavesRecords sampleState (addTable documentedBuiltins
    (findTableDesc documentedBuiltins 2) (secondNameArgs name) sampleState) at hnot
  generalize addTable documentedBuiltins (findTableDesc documentedBuiltins 2)
    (secondNameArgs name) sampleState = out at hnot ⊢
  rcases out with ⟨e | oid, st'⟩
  · exact ⟨e, st', rfl, hnot⟩
  · exact absurd (fun e st' heq => by cases heq) hnot

end

end Reached

end Taco
