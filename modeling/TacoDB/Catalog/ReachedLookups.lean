import TacoDB.Catalog.Reached

/-!
# What lookups return

In the states that are reached, a search of a systable returns the rows that its live records
are read as and on which all equality functions are true, whether it takes them from the cache
or not.
-/

namespace Taco

open Eff Initoids CatCache InitDataFileReader Run

/-- The modes that the search accepts: its assertion holds, and there is room for the rows. -/
structure SearchMode.Accepted (mode : SearchMode) : Prop where
  unique : mode.expectUnique = true → mode.expectN ≤ 1
  room : mode.expectUnique = false → mode.expectN ≤ maxVectorSize

/-- Of the rows that match, the first one when one row is expected, else the expected number of
them, or all of them. -/
def SearchMode.returned (mode : SearchMode) (rows : List SysTableStruct) : List SysTableStruct :=
  if mode.expectUnique then rows.take 1 else takeExpected mode.expectN rows

section Search

variable {builtin : BuiltinTable} {c : Content} {st : CatCache} {k : Nat}

end Search

section

attribute [local instance] documentedStrJoin

end

section Calls

variable {builtin : BuiltinTable} {c : Content} {st : CatCache}

theorem Holding.calls [StrJoin] (hcmp : builtin.Compares) (h : Holding builtin c st) (depth : Nat)
    {calls : List CatCall} (hcalls : ∀ call ∈ calls, call.FindsOrAdds) :
    ∃ c', c.Le c' ∧
      Holding builtin c' (run (CatCache.callStep builtin (depth + 2)) st calls) := by
  induction calls generalizing c st with
  | nil => exact ⟨c, .refl c, h⟩
  | cons call calls ih =>
      obtain ⟨c₁, hle, hst₁, -⟩ := h.callStep hcmp (hcalls call List.mem_cons_self) depth
      obtain ⟨c₂, hle', hst₂⟩ := ih hst₁ fun call' hcall' =>
        hcalls call' (List.mem_cons_of_mem _ hcall')
      rw [run_cons]
      exact ⟨c₂, hle.trans hle', hst₂⟩

structure LooksUp (builtin : BuiltinTable) (n : Nat) (st : CatCache) (c : Content) : Prop where
  table : ∀ tabid, (findTable builtin (findTableDesc builtin n) tabid st).1 = .ok (c.findTable tabid)
  tableDesc : ∀ tabid, (findTableDesc builtin n tabid st).1 = c.findTableDesc builtin tabid
  tableByName : ∀ name,
    (findTableByName builtin (findTableDesc builtin n) name st).1 = .ok (c.findTableByName name)
  type : ∀ typid, (findType builtin (findTableDesc builtin n) typid st).1 = .ok (c.findType typid)
  function : ∀ funcid,
    (findFunction builtin (findTableDesc builtin n) funcid st).1 = .ok (c.findFunction funcid)
  functionByName : ∀ name, (findFunctionByName builtin (findTableDesc builtin n) name st).1 =
    .ok (c.findFunctionByName name)
  functionArgs : ∀ funcid funcargid,
    (findFunctionArgs builtin (findTableDesc builtin n) funcid funcargid st).1 =
      .ok (c.findFunctionArgs funcid funcargid)
  operator : ∀ optype oparg0typid oparg1typid,
    (findOperator builtin (findTableDesc builtin n) optype oparg0typid oparg1typid st).1 =
      (checkOperands optype oparg0typid oparg1typid >>= fun _ =>
        .ok (c.findOperator optype oparg0typid oparg1typid))
  index : ∀ idxid, (findIndex builtin (findTableDesc builtin n) idxid st).1 = .ok (c.findIndex idxid)
  indexDesc : ∀ idxid,
    (findIndexDesc builtin (findTableDesc builtin n) idxid st).1 = c.findIndexDesc builtin idxid
  indexByName : ∀ name,
    (findIndexByName builtin (findTableDesc builtin n) name st).1 = .ok (c.findIndexByName name)
  indexesOf : ∀ tabid, (findAllIndexesOfTable builtin (findTableDesc builtin n) tabid st).1 =
    .ok (c.findAllIndexesOfTable tabid)

theorem Holding.looksUp (hcmp : builtin.Compares) (h : Holding builtin c st) (n : Nat) :
    LooksUp builtin (n + 2) st c := by
  have hs := h.stores
  have hfd := fun k (hk : k ∈ systabids) => answers_findTableDesc hcmp hs n hk
  have hst := h.coherent
  constructor
  case table =>
    exact fun tabid => (findTable_computes hcmp hs (hfd tabTable (by decide)) tabid st hst).1
  case tableDesc => exact fun tabid => (findTableDesc_computes hcmp hs n tabid st hst).1
  case tableByName =>
    exact fun name => (findTableByName_computes hcmp hs (hfd tabTable (by decide)) name st hst).1
  case type =>
    exact fun typid => (findType_computes hcmp hs (hfd tabType (by decide)) typid st hst).1
  case function =>
    exact fun funcid => (findFunction_computes hcmp hs (hfd tabFunction (by decide)) funcid st hst).1
  case functionByName =>
    exact fun name =>
      (findFunctionByName_computes hcmp hs (hfd tabFunction (by decide)) name st hst).1
  case functionArgs =>
    exact fun funcid funcargid => (findFunctionArgs_computes hcmp hs
      (hfd tabFunctionArgs (by decide)) funcid funcargid st hst).1
  case operator =>
    exact fun optype oparg0typid oparg1typid => (findOperator_computes hcmp hs
      (hfd tabOperator (by decide)) optype oparg0typid oparg1typid st hst).1
  case index =>
    exact fun idxid => (findIndex_computes hcmp hs (hfd tabIndex (by decide)) idxid st hst).1
  case indexDesc => exact fun idxid => (findIndexDesc_computes hcmp hs hfd idxid st hst).1
  case indexByName =>
    exact fun name => (findIndexByName_computes hcmp hs (hfd tabIndex (by decide)) name st hst).1
  case indexesOf =>
    exact fun tabid =>
      (findAllIndexesOfTable_computes hcmp hs (hfd tabIndex (by decide)) tabid st hst).1

structure StillFinds (builtin : BuiltinTable) (n : Nat) (st : CatCache) (n' : Nat) (st' : CatCache) :
    Prop where
  table : ∀ tabid table,
    (findTable builtin (findTableDesc builtin n) tabid st).1 = .ok (some table) →
      (findTable builtin (findTableDesc builtin n') tabid st').1 = .ok (some table)
  tableDesc : ∀ tabid desc, (findTableDesc builtin n tabid st).1 = .ok (some desc) →
    (findTableDesc builtin n' tabid st').1 = .ok (some desc)
  tableByName : ∀ name tabid, tabid ≠ invalidOid →
    (findTableByName builtin (findTableDesc builtin n) name st).1 = .ok tabid →
      (findTableByName builtin (findTableDesc builtin n') name st').1 = .ok tabid
  index : ∀ idxid index,
    (findIndex builtin (findTableDesc builtin n) idxid st).1 = .ok (some index) →
      (findIndex builtin (findTableDesc builtin n') idxid st').1 = .ok (some index)
  indexDesc : ∀ idxid desc,
    (findIndexDesc builtin (findTableDesc builtin n) idxid st).1 = .ok (some desc) →
      (findIndexDesc builtin (findTableDesc builtin n') idxid st').1 = .ok (some desc)
  indexByName : ∀ name idxid, idxid ≠ invalidOid →
    (findIndexByName builtin (findTableDesc builtin n) name st).1 = .ok idxid →
      (findIndexByName builtin (findTableDesc builtin n') name st').1 = .ok idxid
  indexesOf : ∀ tabid idxids,
    (findAllIndexesOfTable builtin (findTableDesc builtin n) tabid st).1 = .ok idxids →
      ∃ more, (findAllIndexesOfTable builtin (findTableDesc builtin n') tabid st').1 =
        .ok (idxids ++ more)
  type : ∀ typid, (findType builtin (findTableDesc builtin n') typid st').1 =
    (findType builtin (findTableDesc builtin n) typid st).1
  function : ∀ funcid, (findFunction builtin (findTableDesc builtin n') funcid st').1 =
    (findFunction builtin (findTableDesc builtin n) funcid st).1
  functionByName : ∀ name, (findFunctionByName builtin (findTableDesc builtin n') name st').1 =
    (findFunctionByName builtin (findTableDesc builtin n) name st).1
  functionArgs : ∀ funcid funcargid,
    (findFunctionArgs builtin (findTableDesc builtin n') funcid funcargid st').1 =
      (findFunctionArgs builtin (findTableDesc builtin n) funcid funcargid st).1
  operator : ∀ optype oparg0typid oparg1typid,
    (findOperator builtin (findTableDesc builtin n') optype oparg0typid oparg1typid st').1 =
      (findOperator builtin (findTableDesc builtin n) optype oparg0typid oparg1typid st).1

/-- What is found by a name is found again when there are more rows. -/
theorem elim_find?_of_le {α : Type} {l l' : List α} (h : l <+: l') {p : α → Bool} {get : α → Nat}
    {oid : Nat} (hoid : oid ≠ invalidOid) (hfind : (l.find? p).elim invalidOid get = oid) :
    (l'.find? p).elim invalidOid get = oid := by
  cases hrow : l.find? p with
  | none =>
      rw [hrow] at hfind
      exact absurd hfind.symm hoid
  | some r => rwa [h.find?_eq_some hrow, ← hrow]

theorem LooksUp.stillFinds {c' : Content} {n n' : Nat} {st' : CatCache}
    (h : LooksUp builtin n st c) (h' : LooksUp builtin n' st' c') (hle : c.Le c') :
    StillFinds builtin n st n' st' := by
  constructor
  case table =>
    intro tabid table hfind
    rw [h.table] at hfind
    rw [h'.table, Content.findTable_of_le hle (Except.ok.inj hfind)]
  case tableDesc =>
    intro tabid desc hfind
    rw [h.tableDesc] at hfind
    rw [h'.tableDesc, Content.findTableDesc_of_le hle hfind]
  case tableByName =>
    intro name tabid hoid hfind
    rw [h.tableByName] at hfind
    rw [h'.tableByName]
    exact congrArg _ (elim_find?_of_le hle.tables hoid (Except.ok.inj hfind))
  case index =>
    intro idxid index hfind
    rw [h.index] at hfind
    rw [h'.index, Content.findIndex_of_le hle (Except.ok.inj hfind)]
  case indexDesc =>
    intro idxid desc hfind
    rw [h.indexDesc] at hfind
    rw [h'.indexDesc, Content.findIndexDesc_of_le hle hfind]
  case indexByName =>
    intro name idxid hoid hfind
    rw [h.indexByName] at hfind
    rw [h'.indexByName]
    exact congrArg _ (elim_find?_of_le hle.indexes hoid (Except.ok.inj hfind))
  case indexesOf =>
    intro tabid idxids hfind
    rw [h.indexesOf] at hfind
    obtain ⟨more, hmore⟩ := hle.indexes
    refine ⟨(more.filter (·.idxtabid = oidOf tabid)).map (·.idxid), ?_⟩
    rw [h'.indexesOf, ← Except.ok.inj hfind, Content.findAllIndexesOfTable,
      Content.findAllIndexesOfTable, ← hmore, List.filter_append, List.map_append]
  case type =>
    intro typid
    rw [h.type, h'.type, Content.findType_of_le hle]
  case function =>
    intro funcid
    rw [h.function, h'.function, Content.findFunction, Content.findFunction, hle.functions]
  case functionByName =>
    intro name
    rw [h.functionByName, h'.functionByName, Content.findFunctionByName, Content.findFunctionByName,
      hle.functions]
  case functionArgs =>
    intro funcid funcargid
    rw [h.functionArgs, h'.functionArgs, Content.findFunctionArgs, Content.findFunctionArgs,
      hle.functionArgs]
  case operator =>
    intro optype oparg0typid oparg1typid
    rw [h.operator, h'.operator, Content.findOperator, Content.findOperator, hle.operators]

end Calls

/-- Whatever calls are made, a lookup that has found something finds the same from then on, and
the lookups in the systables that nothing is added to return what they returned. -/
theorem Reached.stillFinds [StrJoin] {num : Numbers} {others : BuiltinTable} {st : CatCache}
    (hnum : num.InRange) (h : Reached num others st) (n n' depth : Nat) {calls : List CatCall}
    (hcalls : ∀ call ∈ calls, call.FindsOrAdds) :
    StillFinds (findBuiltinFunction num others) (n + 2) st (n' + 2)
      (run (callStep (findBuiltinFunction num others) (depth + 2)) st calls) := by
  have hcmp := findBuiltinFunction_compares num others
  have hst := (h.holding hnum).1
  obtain ⟨c', hle, hst'⟩ := hst.calls hcmp depth hcalls
  exact (hst.looksUp hcmp n).stillFinds (hst'.looksUp hcmp n') hle

def sampleTableArgs : AddTableArgs :=
  ⟨ascii "orders", [104, 111], [0, 20], [], [false, true], [], 77⟩

section

attribute [local instance] documentedStrJoin

/-- The lookups after the initialization from the sample and a call that adds a table. -/
theorem Reached.stillFinds_sample :
    StillFinds documentedBuiltins 2 sampleState 3
      (run (callStep documentedBuiltins 2) sampleState [.addTable sampleTableArgs]) := by
  refine sampleState_reached.stillFinds documentedNumbers_inRange 0 1 0 fun call hcall => ?_
  rw [List.mem_singleton.mp hcall]
  trivial

end

end Taco
