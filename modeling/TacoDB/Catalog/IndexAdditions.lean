import TacoDB.Catalog.Additions

/-!
# The effects of `AddIndex`

The checks of `AddIndex` as a function of the content: the descriptor of the table, the name
of the index, and for each key column its operator functions. What `AddIndex` does after
them is what `AddTable` does: it takes an object identifier and inserts the row of the new
index and the rows of its columns.
-/

namespace Taco

open Eff Initoids CatCache

namespace Content

def foundOperator (optype idxtyp idxcoltypid funcid : Nat) : Except Failure Nat :=
  if funcid = invalidOid then do
    let name ← IdxType.getName idxtyp
    .error (.tdbError .kError ("can't find \"" ++ OpType.symbol optype ++
      "\" operator for type " ++ toString idxcoltypid ++ " required by index type " ++ name))
  else .ok funcid

def keyOperator (c : Content) (needed : Bool) (optype idxtyp idxcoltypid funcid : Nat) :
    Except Failure Nat :=
  if needed then
    if funcid = invalidOid then do
      checkOperands optype idxcoltypid idxcoltypid
      foundOperator optype idxtyp idxcoltypid (c.findOperator optype idxcoltypid idxcoltypid)
    else foundOperator optype idxtyp idxcoltypid funcid
  else .ok funcid

def notAnOperator (function : SysTableFunction) (opfuncid eqfuncid idxcoltypid : Nat) : Failure :=
  .tdbError .kError ("function " ++ messageText function.funcname ++ " is not a valid \"" ++
    (if opfuncid = eqfuncid then "=" else "<") ++ "\" operator for type " ++ toString idxcoltypid)

def checkOperatorArgs (c : Content) (function : SysTableFunction)
    (opfuncid eqfuncid idxcoltypid : Nat) : List Int → Except Failure Unit
  | [] => .ok ()
  | funcargid :: funcargids =>
      match c.findFunctionArgs opfuncid funcargid with
      | none => .error (notAnOperator function opfuncid eqfuncid idxcoltypid)
      | some functionargs =>
        if functionargs.funcargtypid ≠ idxcoltypid then
          .error (notAnOperator function opfuncid eqfuncid idxcoltypid)
        else c.checkOperatorArgs function opfuncid eqfuncid idxcoltypid funcargids

def checkOperator (c : Content) (eqfuncid idxcoltypid opfuncid : Nat) : Except Failure Unit :=
  if opfuncid = invalidOid then .ok ()
  else
    match c.findFunction opfuncid with
    | none => .error (.undefined "null function")
    | some function =>
      if function.funcnargs ≠ 2 ∨ function.funcrettypid ≠ typBool then
        .error (notAnOperator function opfuncid eqfuncid idxcoltypid)
      else c.checkOperatorArgs function opfuncid eqfuncid idxcoltypid [0, 1]

def checkKeyColumn (c : Content) (tabschema : Schema) (idxtyp : Nat) (tabcolid : Int)
    (eqfuncid ltfuncid : Nat) : Except Failure KeyColumn :=
  if tabcolid ≥ tabschema.getNumFields then
    .error (.tdbError .kError "")
  else if tabcolid < 0 then .error (.undefined "read out of bounds")
  else do
    let typid := tabschema.getFieldTypeId tabcolid.toNat
    let needsEqual ← IdxType.needsEqualOperator idxtyp
    let eqfuncid ← c.keyOperator needsEqual OpType.eq idxtyp typid eqfuncid
    let needsLess ← IdxType.needsLessOperator idxtyp
    let ltfuncid ← c.keyOperator needsLess OpType.lt idxtyp typid ltfuncid
    c.checkOperator eqfuncid typid eqfuncid
    c.checkOperator eqfuncid typid ltfuncid
    return {
      tabcolid, typid, eqfuncid, ltfuncid
      isnullable := tabschema.fieldIsNullable tabcolid.toNat
      typparam := tabschema.getFieldTypeParam tabcolid.toNat }

def checkKeyColumns (c : Content) (tabschema : Schema) (idxtyp : Nat) :
    List (Int × Nat × Nat) → Except Failure (List KeyColumn)
  | [] => .ok []
  | (tabcolid, eqfuncid, ltfuncid) :: keys => do
      let key ← c.checkKeyColumn tabschema idxtyp tabcolid eqfuncid ltfuncid
      return key :: (← c.checkKeyColumns tabschema idxtyp keys)

/-- The checks of `AddIndex`: the name and the key columns of the new index. -/
def checkIndex [StrJoin] (c : Content) (builtin : BuiltinTable) (a : AddIndexArgs) :
    Except Failure (ByteString × List KeyColumn) := do
  match ← c.findTableDesc builtin a.idxtabid with
  | none => .error (.tdbError .kError s!"table {a.idxtabid} does not exist")
  | some tabdesc =>
    let idxname ← indexName a tabdesc
    checkIndexArgs a
    return (idxname, ← c.checkKeyColumns tabdesc.schema a.idxtyp a.keys)

end Content

section CheckIndex

variable {builtin : BuiltinTable} (hcmp : builtin.Compares) {files : VolatileFiles} {c : Content}
  (hs : Stores files c) {fd : Nat → Eff Failure CatCache (Option TableDesc)}
  (hfd : ∀ k ∈ systabids, Answers (Coherent builtin true files c) fd c k)

include hcmp hs hfd

theorem findKeyOperator_computes (needed : Bool) (optype idxtyp idxcoltypid funcid : Nat) :
    Computes (Coherent builtin true files c)
      (findKeyOperator builtin fd needed optype idxtyp idxcoltypid funcid)
      (c.keyOperator needed optype idxtyp idxcoltypid funcid) := by
  unfold findKeyOperator Content.keyOperator
  cases needed with
  | false => exact .ret _
  | true =>
      have hfound : ∀ funcid : Nat, Computes (Coherent builtin true files c)
          (if funcid = invalidOid then do
            let name ← Eff.ofExcept (IdxType.getName idxtyp)
            logError ("can't find \"" ++ OpType.symbol optype ++ "\" operator for type " ++
              toString idxcoltypid ++ " required by index type " ++ name)
          else (pure funcid : Eff Failure CatCache Nat))
          (Content.foundOperator optype idxtyp idxcoltypid funcid) := by
        intro funcid
        unfold Content.foundOperator
        split
        · exact .bind (.lift _) fun _ _ => .failure _
        · exact .ret _
      rw [if_pos rfl, if_pos rfl]
      dsimp only
      split
      · have hoperator := findOperator_computes hcmp hs (hfd tabOperator (by decide)) optype
          idxcoltypid idxcoltypid
        cases hoperands : checkOperands optype idxcoltypid idxcoltypid with
        | error e =>
            rw [hoperands] at hoperator
            exact .bind_error hoperator
        | ok u =>
            rw [hoperands] at hoperator
            exact .bind_ok hoperator (hfound _)
      · exact .bind_ok (.ret _) (hfound _)

theorem checkOperatorArgs_computes (function : SysTableFunction)
    (opfuncid eqfuncid idxcoltypid : Nat) (funcargids : List Int) :
    Computes (Coherent builtin true files c)
      (checkOperatorArgs builtin fd function opfuncid eqfuncid idxcoltypid funcargids)
      (c.checkOperatorArgs function opfuncid eqfuncid idxcoltypid funcargids) := by
  induction funcargids with
  | nil => exact .ret ()
  | cons funcargid funcargids ih =>
      unfold CatCache.checkOperatorArgs Content.checkOperatorArgs
      refine .bind_ok
        (findFunctionArgs_computes hcmp hs (hfd tabFunctionArgs (by decide)) opfuncid funcargid) ?_
      cases c.findFunctionArgs opfuncid funcargid with
      | none => exact .failure _
      | some functionargs =>
          dsimp only
          split
          · exact .failure _
          · exact ih

theorem checkOperator_computes (eqfuncid idxcoltypid opfuncid : Nat) :
    Computes (Coherent builtin true files c) (checkOperator builtin fd eqfuncid idxcoltypid opfuncid)
      (c.checkOperator eqfuncid idxcoltypid opfuncid) := by
  unfold CatCache.checkOperator Content.checkOperator
  split
  · exact .ret ()
  · refine .bind_ok (findFunction_computes hcmp hs (hfd tabFunction (by decide)) opfuncid) ?_
    cases c.findFunction opfuncid with
    | none => exact .failure _
    | some function =>
        dsimp only
        split
        · exact .failure _
        · exact checkOperatorArgs_computes hcmp hs hfd function opfuncid eqfuncid idxcoltypid _

theorem checkKeyColumn_computes (tabschema : Schema) (idxtyp : Nat) (tabcolid : Int)
    (eqfuncid ltfuncid : Nat) :
    Computes (Coherent builtin true files c)
      (checkKeyColumn builtin fd tabschema idxtyp tabcolid eqfuncid ltfuncid)
      (c.checkKeyColumn tabschema idxtyp tabcolid eqfuncid ltfuncid) := by
  unfold CatCache.checkKeyColumn Content.checkKeyColumn
  split
  · exact .failure _
  split
  · exact .failure _
  · refine .bind (.lift _) fun _ _ => ?_
    refine .bind (findKeyOperator_computes hcmp hs hfd _ _ _ _ _) fun _ _ => ?_
    refine .bind (.lift _) fun _ _ => ?_
    refine .bind (findKeyOperator_computes hcmp hs hfd _ _ _ _ _) fun _ _ => ?_
    refine .bind (checkOperator_computes hcmp hs hfd _ _ _) fun _ _ => ?_
    exact .bind (checkOperator_computes hcmp hs hfd _ _ _) fun _ _ => .ret _

theorem checkKeyColumns_computes (tabschema : Schema) (idxtyp : Nat)
    (keys : List (Int × Nat × Nat)) :
    Computes (Coherent builtin true files c) (checkKeyColumns builtin fd tabschema idxtyp keys)
      (c.checkKeyColumns tabschema idxtyp keys) := by
  induction keys with
  | nil => exact .ret _
  | cons key keys ih =>
      obtain ⟨tabcolid, eqfuncid, ltfuncid⟩ := key
      refine .bind (checkKeyColumn_computes hcmp hs hfd tabschema idxtyp _ _ _) fun _ _ => ?_
      exact .bind ih fun _ _ => .ret _

end CheckIndex

/-- The outcomes of `AddIndex`: it is refused, or a row of `Index` and the rows of `IndexColumn`
are added as far as they can be. -/
inductive AddIndexOutcome [StrJoin] (builtin : BuiltinTable) (c : Content) (st : CatCache)
    (args : AddIndexArgs) : Except Failure Nat × CatCache → Prop
  | refused {e st'} (refused : c.checkIndex builtin args = .error e)
      (kept : Kept builtin c st st') : AddIndexOutcome builtin c st args (.error e, st')
  | accepted {idxname keys out} (accepted : c.checkIndex builtin args = .ok (idxname, keys))
      (outcome : AddOutcome .index .indexColumn builtin c st st.files.nextOid
        (args.indexRow st.files.nextOid idxname) (indexColumnRows st.files.nextOid keys) out) :
      AddIndexOutcome builtin c st args out

theorem addIndex_outcome [StrJoin] {builtin : BuiltinTable} {c : Content} {st : CatCache}
    (hcmp : builtin.Compares) (n : Nat) (h : Holding builtin c st) (args : AddIndexArgs) :
    AddIndexOutcome builtin c st args
      (addIndex builtin (findTableDesc builtin (n + 2)) args st) := by
  obtain ⟨st₁, hrun, hfiles, hst₁⟩ := h.computes (findTableDesc_computes hcmp h.stores n args.idxtabid)
  have hkept₁ : Kept builtin c st st₁ := .of_files_eq hst₁ hfiles
  unfold addIndex
  cases hdesc : c.findTableDesc builtin args.idxtabid with
  | error e =>
      rw [hdesc] at hrun
      rw [bind_of_error hrun]
      refine .refused ?_ hkept₁
      rw [Content.checkIndex, hdesc]
      rfl
  | ok desc? =>
      rw [hdesc] at hrun
      rw [bind_of_ok hrun]
      cases desc? with
      | none =>
          refine .refused ?_ hkept₁
          rw [Content.checkIndex, hdesc]
          rfl
      | some tabdesc =>
          have hcheck : c.checkIndex builtin args = (indexName args tabdesc >>= fun idxname =>
              checkIndexArgs args >>= fun _ =>
                c.checkKeyColumns tabdesc.schema args.idxtyp args.keys >>= fun keys =>
                  .ok (idxname, keys)) := by
            rw [Content.checkIndex, hdesc]
            rfl
          dsimp only
          cases hname : indexName args tabdesc with
          | error e =>
              rw [bind_of_error (ofExcept_apply _ _)]
              refine .refused ?_ hkept₁
              rw [hcheck, hname]
              rfl
          | ok idxname =>
              rw [bind_of_ok (ofExcept_apply _ _)]
              cases hargs : checkIndexArgs args with
              | error e =>
                  rw [bind_of_error (ofExcept_apply _ _)]
                  refine .refused ?_ hkept₁
                  rw [hcheck, hname, hargs]
                  rfl
              | ok u =>
                  rw [bind_of_ok (ofExcept_apply _ _)]
                  have hfd₁ := fun k (hk : k ∈ systabids) => answers_findTableDesc hcmp hst₁.stores n hk
                  obtain ⟨st₂, hrun₂, hfiles₂, hst₂⟩ := hst₁.computes
                    (checkKeyColumns_computes hcmp hst₁.stores hfd₁ tabdesc.schema args.idxtyp args.keys)
                  have hkept₂ : Kept builtin c st st₂ :=
                    hkept₁.trans (.of_files_eq hst₂ hfiles₂)
                  cases hkeys : c.checkKeyColumns tabdesc.schema args.idxtyp args.keys with
                  | error e =>
                      rw [hkeys] at hrun₂
                      rw [bind_of_error hrun₂]
                      refine .refused ?_ hkept₂
                      rw [hcheck, hname, hargs, hkeys]
                      rfl
                  | ok keys =>
                      rw [hkeys] at hrun₂
                      rw [bind_of_ok hrun₂]
                      have hout := addRows_outcome (p := .index) (q := .indexColumn) hcmp n hst₂
                        (by decide) (args.indexRow · idxname) (indexColumnRows · keys)
                        (fun _ => rfl) fun oid col hcol => by
                          obtain ⟨k, -, rfl⟩ := List.mem_map.mp hcol
                          rfl
                      have hout' := hout.of_files_eq (hfiles₂.trans hfiles)
                      rw [hfiles₂, hfiles] at hout'
                      have haccepted : c.checkIndex builtin args = .ok (idxname, keys) := by
                        rw [hcheck, hname, hargs, hkeys]
                        rfl
                      exact .accepted haccepted hout'

theorem addIndex_ok [StrJoin] {builtin : BuiltinTable} {c : Content} {st st' : CatCache}
    (hcmp : builtin.Compares) {n : Nat} (h : Holding builtin c st) {args : AddIndexArgs}
    {idxid : Nat}
    (hrun : addIndex builtin (findTableDesc builtin (n + 2)) args st = (.ok idxid, st')) :
    ∃ idxname keys, c.checkIndex builtin args = .ok (idxname, keys) ∧ idxid = st.files.nextOid ∧
      Added .index .indexColumn builtin c st idxid (args.indexRow idxid idxname)
        (indexColumnRows idxid keys) st' := by
  have hout := addIndex_outcome hcmp n h args
  rw [hrun] at hout
  cases hout with
  | @accepted idxname keys out hacc hout =>
      obtain ⟨rfl, -, -, hadded⟩ := hout.of_ok
      exact ⟨idxname, keys, hacc, rfl, hadded⟩

end Taco
