import TacoDB.Catalog.AddedIndexes
import TacoDB.Utils.CaseInsensitive

/-!
# Looking for what was added by its name

The search by name returns the first row whose name is equal up to case. Nothing keeps
`AddTable` and `AddIndex` from adding a name that is there already, and then the new table or
index is never found by it.
-/

namespace Taco

open Eff Initoids CatCache Run

/-- The last row is found exactly when it matches and no other row does. -/
theorem find?_concat_iff {α : Type} {l : List α} {x : α} {p : α → Bool} {get : α → Nat}
    (hl : ∀ r ∈ l, get r ≠ get x) (hx : get x ≠ invalidOid) :
    ((l ++ [x]).find? p).elim invalidOid get = get x ↔ p x = true ∧ ∀ r ∈ l, p r = false := by
  rw [List.find?_append]
  cases hfind : l.find? p with
  | some r =>
      rw [Option.some_or]
      refine iff_of_false (hl r (List.mem_of_find?_eq_some hfind)) ?_
      rintro ⟨-, hnone⟩
      have hmatch := List.find?_some hfind
      rw [hnone r (List.mem_of_find?_eq_some hfind)] at hmatch
      cases hmatch
  | none =>
      have hnone : ∀ r ∈ l, p r = false := by simpa using hfind
      rw [Option.none_or, and_iff_left hnone]
      cases hp : p x with
      | true =>
          rw [List.find?_cons_of_pos hp]
          exact iff_of_true rfl rfl
      | false =>
          rw [List.find?_cons_of_neg (by rw [hp]; exact Bool.false_ne_true)]
          exact iff_of_false (fun heq => hx heq.symm) Bool.false_ne_true

/-- What is stored of a name is found by it when all of it is stored. -/
theorem stringEqualCi_storedName_iff (name : ByteString) :
    stringEqualCi (storedName name) (nameOf name) = true ↔ name.length % 2 ^ 32 ≤ 32767 := by
  have hlen : (nameOf name).length = name.length % 2 ^ 32 := by
    change (name.take (name.length % 2 ^ 32)).length = _
    rw [List.length_take]
    omega
  have hstored : storedName name =
      (nameOf name).take (toFieldOffset (nameOf name).length).toNat := rfl
  rw [hstored, ← hlen]
  by_cases hle : (nameOf name).length ≤ 32767
  · rw [toFieldOffset_of_mem (by omega) (by omega), Int.toNat_natCast, List.take_length]
    exact iff_of_true (stringEqualCi_iff.mpr rfl) hle
  · refine iff_of_false (fun heq => ?_) hle
    rw [stringEqualCi, Bool.and_eq_true, decide_eq_true_iff, List.length_take] at heq
    have hrange := toFieldOffset_eq (nameOf name).length
    omega

theorem Content.idxname_of_checkIndex [StrJoin] {builtin : BuiltinTable} {c : Content}
    {args : AddIndexArgs}
    {idxname : ByteString} {keys : List KeyColumn} (hnamed : args.idxname ≠ [])
    (h : c.checkIndex builtin args = .ok (idxname, keys)) : idxname = args.idxname := by
  unfold checkIndex at h
  obtain ⟨desc?, -, h⟩ := except_bind_eq_ok_iff.mp h
  cases desc? with
  | none => cases h
  | some desc =>
      obtain ⟨name, hname, h⟩ := except_bind_eq_ok_iff.mp h
      obtain ⟨u, -, h⟩ := except_bind_eq_ok_iff.mp h
      obtain ⟨keys', -, h⟩ := except_bind_eq_ok_iff.mp h
      cases h
      rw [indexName, if_neg hnamed] at hname
      exact (Except.ok.inj hname).symm

/-- All of the name is stored, and `string_equal_ci`, which stops behind a NUL byte, finds none of the
others equal to it. -/
def NewName (name : ByteString) (others : List ByteString) : Prop :=
  name.length % 2 ^ 32 ≤ 32767 ∧ ∀ other ∈ others, stringEqualCi other (nameOf name) = false

/-- From the state `st` on, whatever is called, `FindTableByName` finds the table by this name. -/
def FindsTableByName [StrJoin] (builtin : BuiltinTable) (st : CatCache) (name : ByteString)
    (tabid : Nat) : Prop :=
  ∀ (n depth : Nat) (calls : List CatCall), (∀ call ∈ calls, call.FindsOrAdds) →
    (findTableByName builtin (findTableDesc builtin (n + 2)) name
      (run (callStep builtin (depth + 2)) st calls)).1 = .ok tabid

@[inherit_doc FindsTableByName]
def FindsIndexByName [StrJoin] (builtin : BuiltinTable) (st : CatCache) (name : ByteString)
    (idxid : Nat) : Prop :=
  ∀ (n depth : Nat) (calls : List CatCall), (∀ call ∈ calls, call.FindsOrAdds) →
    (findIndexByName builtin (findTableDesc builtin (n + 2)) name
      (run (callStep builtin (depth + 2)) st calls)).1 = .ok idxid

section

variable {num : Numbers} {others : BuiltinTable} {c : Content} {st st' : CatCache}

theorem Holding.findsTableByName_iff [StrJoin] (h : Holding (findBuiltinFunction num others) c st)
    {n : Nat} {args : AddTableArgs} {tabid : Nat} (hrun : addTable (findBuiltinFunction num others)
      (findTableDesc (findBuiltinFunction num others) (n + 2)) args st = (.ok tabid, st')) :
    FindsTableByName (findBuiltinFunction num others) st' args.tabname tabid ↔
      NewName args.tabname (c.tables.map (·.tabname)) := by
  have hcmp := findBuiltinFunction_compares num others
  obtain ⟨a, hacc, -, hadded⟩ := Taco.addTable_ok hcmp h hrun
  have htabid : (a.tableRow tabid).stored.tabid = tabid :=
    hadded.holding.stores.oidOf_fresh hadded.fresh
  have hvalid : (a.tableRow tabid).stored.tabid ≠ invalidOid := by
    rw [htabid]
    exact Nat.ne_of_gt (Nat.lt_of_le_of_lt (Nat.zero_le _) hadded.fresh.1)
  have hother : ∀ r ∈ c.tables, r.tabid ≠ (a.tableRow tabid).stored.tabid := by
    intro r hr
    have := hadded.issued.tables r hr
    rw [htabid]
    omega
  have hname : (a.tableRow tabid).stored.tabname = storedName args.tabname := by
    rw [SysTableTable.stored, AddTableArgs.tableRow, (AddTableArgs.checkSizes_frame hacc.sizes).2]
  have hiff := find?_concat_iff
    (p := fun r => stringEqualCi r.tabname (nameOf args.tabname)) hother hvalid
  rw [htabid, hname, stringEqualCi_storedName_iff] at hiff
  rw [NewName, List.forall_mem_map]
  refine Iff.trans ?_ hiff
  constructor
  · intro hfinds
    have hfound := hfinds 0 0 [] fun call hcall => (by cases hcall)
    rw [run, List.foldl_nil, (hadded.holding.looksUp hcmp 0).tableByName] at hfound
    exact Except.ok.inj hfound
  · intro hfound n' depth calls hcalls
    obtain ⟨c', hle, hlater⟩ := hadded.holding.calls hcmp depth hcalls
    rw [(hlater.looksUp hcmp n').tableByName]
    exact congrArg _ (elim_find?_of_le hle.tables (htabid ▸ hvalid) hfound)

theorem Holding.findsIndexByName_iff [StrJoin] (h : Holding (findBuiltinFunction num others) c st)
    {n : Nat} {args : AddIndexArgs} (hnamed : args.idxname ≠ []) {idxid : Nat}
    (hrun : addIndex (findBuiltinFunction num others)
      (findTableDesc (findBuiltinFunction num others) (n + 2)) args st = (.ok idxid, st')) :
    FindsIndexByName (findBuiltinFunction num others) st' args.idxname idxid ↔
      NewName args.idxname (c.indexes.map (·.idxname)) := by
  have hcmp := findBuiltinFunction_compares num others
  obtain ⟨idxname, keys, hacc, -, hadded⟩ := Taco.addIndex_ok hcmp h hrun
  have hidxid : (args.indexRow idxid idxname).stored.idxid = idxid :=
    hadded.holding.stores.oidOf_fresh hadded.fresh
  have hvalid : (args.indexRow idxid idxname).stored.idxid ≠ invalidOid := by
    rw [hidxid]
    exact Nat.ne_of_gt (Nat.lt_of_le_of_lt (Nat.zero_le _) hadded.fresh.1)
  have hother : ∀ r ∈ c.indexes, r.idxid ≠ (args.indexRow idxid idxname).stored.idxid := by
    intro r hr
    have := hadded.issued.indexes r hr
    rw [hidxid]
    omega
  have hname : (args.indexRow idxid idxname).stored.idxname = storedName args.idxname := by
    rw [SysTableIndex.stored, AddIndexArgs.indexRow, Content.idxname_of_checkIndex hnamed hacc]
  have hiff := find?_concat_iff
    (p := fun r => stringEqualCi r.idxname (nameOf args.idxname)) hother hvalid
  rw [hidxid, hname, stringEqualCi_storedName_iff] at hiff
  rw [NewName, List.forall_mem_map]
  refine Iff.trans ?_ hiff
  constructor
  · intro hfinds
    have hfound := hfinds 0 0 [] fun call hcall => (by cases hcall)
    rw [run, List.foldl_nil, (hadded.holding.looksUp hcmp 0).indexByName] at hfound
    exact Except.ok.inj hfound
  · intro hfound n' depth calls hcalls
    obtain ⟨c', hle, hlater⟩ := hadded.holding.calls hcmp depth hcalls
    rw [(hlater.looksUp hcmp n').indexByName]
    exact congrArg _ (elim_find?_of_le hle.indexes (hidxid ▸ hvalid) hfound)

/-- What `AddTable` or `AddIndex` has added is found by its name, then and later, exactly when all of
the name is stored and no table, or no index, had a name that is equal to it up to case. -/
theorem Reached.added_findsByName_iff [StrJoin] (hnum : num.InRange) (h : Reached num others st)
    (n : Nat) :
    (∀ args tabid st', addTable (findBuiltinFunction num others)
        (findTableDesc (findBuiltinFunction num others) (n + 2)) args st = (.ok tabid, st') →
      (FindsTableByName (findBuiltinFunction num others) st' args.tabname tabid ↔
        NewName args.tabname (st.content.tables.map (·.tabname)))) ∧
    ∀ args idxid st', args.idxname ≠ [] → addIndex (findBuiltinFunction num others)
        (findTableDesc (findBuiltinFunction num others) (n + 2)) args st = (.ok idxid, st') →
      (FindsIndexByName (findBuiltinFunction num others) st' args.idxname idxid ↔
        NewName args.idxname (st.content.indexes.map (·.idxname))) := by
  have hst := (h.holding hnum).1
  exact ⟨fun _ _ _ hrun => hst.findsTableByName_iff hrun,
    fun _ _ _ hnamed hrun => hst.findsIndexByName_iff hnamed hrun⟩

section

attribute [local instance] documentedStrJoin

/-- What is added to the sample. -/
theorem Reached.added_findsByName_iff_sample :
    (∀ args tabid st', addTable documentedBuiltins (findTableDesc documentedBuiltins 2) args
        sampleState = (.ok tabid, st') →
      (FindsTableByName documentedBuiltins st' args.tabname tabid ↔
        NewName args.tabname (sampleState.content.tables.map (·.tabname)))) ∧
    ∀ args idxid st', args.idxname ≠ [] → addIndex documentedBuiltins
        (findTableDesc documentedBuiltins 2) args sampleState = (.ok idxid, st') →
      (FindsIndexByName documentedBuiltins st' args.idxname idxid ↔
        NewName args.idxname (sampleState.content.indexes.map (·.idxname))) :=
  sampleState_reached.added_findsByName_iff documentedNumbers_inRange 0

def sameNameArgs : AddTableArgs := { sampleTableArgs with tabname := ascii "table" }

/-- It is added, and `FindTableByName` does not find it. -/
theorem sameName_notFound : ∃ tabid st',
    addTable documentedBuiltins (findTableDesc documentedBuiltins 2) sameNameArgs sampleState =
      (.ok tabid, st') ∧
    ¬ FindsTableByName documentedBuiltins st' sameNameArgs.tabname tabid := by
  have hargs : sameNameArgs.FitsSample :=
    ⟨⟨by decide +kernel, by decide +kernel, by decide⟩, by decide +kernel, by decide +kernel,
      by decide⟩
  obtain ⟨st', hrun⟩ := hargs.returns
  refine ⟨_, st', hrun, fun hfinds => ?_⟩
  obtain ⟨fidOf, hst, -, -⟩ := sampleState_holding
  have hnew := (hst.findsTableByName_iff hrun).mp hfinds
  have hclash : ∃ other ∈ (sampleContent.withFids fidOf).tables.map (·.tabname),
      stringEqualCi other (nameOf sameNameArgs.tabname) = true := by
    rw [Content.withFids, List.map_map]
    change ∃ other ∈ sampleContent.tables.map (·.tabname), _
    decide +kernel
  obtain ⟨other, hmem, hequal⟩ := hclash
  rw [hnew.2 other hmem] at hequal
  cases hequal

end

end

end Taco
