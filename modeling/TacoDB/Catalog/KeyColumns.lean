import TacoDB.Catalog.ComputedLayouts
import TacoDB.Catalog.IndexNames
import TacoDB.Control.Checks

/-!
# The key columns of an index

Which arguments `AddIndex` accepts, said over the content of the catalog: the columns of the table
and the operator functions of their types. It refuses the others with an error, except that it
reads in front of the fields for a negative column number, and asks a function that is not there
for its name.
-/

namespace Taco

open Eff Initoids CatCache Schema Run

def Failure.Logged (e : Failure) : Prop := ∃ msg, e = .tdbError .kError msg

def Failure.Undefined (e : Failure) : Prop := ∃ what, e = .undefined what

theorem logged (msg : String) : (Failure.tdbError .kError msg).Logged := ⟨msg, rfl⟩

section Keys

variable (c : Content) (schema : Schema) (key : Int × Nat × Nat)

structure Content.IsOperator (funcid typid : Nat) : Prop where
  function : ∃ function, c.findFunction funcid = some function ∧ function.funcnargs = 2 ∧
    function.funcrettypid = typBool
  args : ∀ funcargid ∈ [(0 : Int), 1], ∃ functionargs,
    c.findFunctionArgs funcid funcargid = some functionargs ∧ functionargs.funcargtypid = typid

def Content.operatorFor (optype typid funcid : Nat) : Nat :=
  if funcid = invalidOid ∧ typid ≠ invalidOid then c.findOperator optype typid typid else funcid

def Content.keyColumnOf : KeyColumn :=
  let typid := schema.getFieldTypeId key.1.toNat
  { tabcolid := key.1
    typid
    isnullable := schema.fieldIsNullable key.1.toNat
    typparam := schema.getFieldTypeParam key.1.toNat
    eqfuncid := c.operatorFor OpType.eq typid key.2.1
    ltfuncid := c.operatorFor OpType.lt typid key.2.2 }

structure Content.ValidKey : Prop where
  column : 0 ≤ key.1 ∧ key.1 < schema.getNumFields
  found : (c.keyColumnOf schema key).eqfuncid ≠ invalidOid ∧
    (c.keyColumnOf schema key).ltfuncid ≠ invalidOid
  equal : c.IsOperator (c.keyColumnOf schema key).eqfuncid (c.keyColumnOf schema key).typid
  less : c.IsOperator (c.keyColumnOf schema key).ltfuncid (c.keyColumnOf schema key).typid

/-- A negative column number; or one of the two functions is not there, and nothing in front of it
is refused. -/
def Content.FaultyKey : Prop :=
  key.1 < schema.getNumFields ∧ (key.1 < 0 ∨
    ((c.keyColumnOf schema key).eqfuncid ≠ invalidOid ∧
      (c.keyColumnOf schema key).ltfuncid ≠ invalidOid ∧
      (c.findFunction (c.keyColumnOf schema key).eqfuncid = none ∨
        (c.IsOperator (c.keyColumnOf schema key).eqfuncid (c.keyColumnOf schema key).typid ∧
          c.findFunction (c.keyColumnOf schema key).ltfuncid = none))))

/-- The column is outside of the table, or a function that was supplied for it does not compare
values of its type. -/
def Content.InvalidKey : Prop :=
  key.1 < 0 ∨ schema.getNumFields ≤ key.1 ∨ ∃ funcid ∈ [key.2.1, key.2.2],
    funcid ≠ invalidOid ∧ ¬ c.IsOperator funcid (schema.getFieldTypeId key.1.toNat)

variable {c schema key}

theorem Content.InvalidKey.not_validKey (h : c.InvalidKey schema key) :
    ¬ c.ValidKey schema key := by
  intro hvalid
  have hcolumn := hvalid.column
  rcases h with hneg | hge | ⟨funcid, hmem, hsupplied, hnot⟩
  · omega
  · omega
  · have hkept : ∀ optype, c.operatorFor optype (schema.getFieldTypeId key.1.toNat) funcid = funcid :=
      fun optype => if_neg fun h => hsupplied h.1
    rcases List.mem_pair.mp hmem with rfl | rfl
    · have hequal := hvalid.equal
      rw [keyColumnOf, hkept] at hequal
      exact hnot hequal
    · have hless := hvalid.less
      rw [keyColumnOf, hkept] at hless
      exact hnot hless

end Keys

structure Content.Typed (c : Content) : Prop where
  tabncols : ∀ r ∈ c.tables, -32768 ≤ r.tabncols ∧ r.tabncols ≤ 32767
  typids : ∀ r ∈ c.columns, r.coltypid < 2 ^ 32
  typparams : ∀ r ∈ c.columns, r.coltypparam < 2 ^ 64
  opfuncids : ∀ r ∈ c.operators, r.opfuncid < 2 ^ 32
  idxncols : ∀ r ∈ c.indexes, -32768 ≤ r.idxncols ∧ r.idxncols ≤ 32767

theorem CatCache.content_typed (st : CatCache) : st.content.Typed := by
  constructor
  · intro r hr
    obtain ⟨data, -, rfl⟩ := List.mem_map.mp hr
    have hncols : (SysTableTable.ofData data).tabncols =
        TwosComplement.narrow 16 (fieldOf data 3).val.toNat := rfl
    rw [hncols, TwosComplement.narrow_sixteen]
    omega
  · intro r hr
    obtain ⟨data, -, rfl⟩ := List.mem_map.mp hr
    exact Nat.mod_lt _ (Nat.two_pow_pos 32)
  · intro r hr
    obtain ⟨data, -, rfl⟩ := List.mem_map.mp hr
    exact Nat.mod_lt _ (Nat.two_pow_pos 64)
  · intro r hr
    obtain ⟨data, -, rfl⟩ := List.mem_map.mp hr
    exact Nat.mod_lt _ (Nat.two_pow_pos 32)
  · intro r hr
    obtain ⟨data, -, rfl⟩ := List.mem_map.mp hr
    have hncols : (SysTableIndex.ofData data).idxncols =
        TwosComplement.narrow 16 (fieldOf data 4).val.toNat := rfl
    rw [hncols, TwosComplement.narrow_sixteen]
    omega

section Operators

variable {c : Content}

theorem Content.IsOperator.ne_none {funcid typid : Nat} (h : c.IsOperator funcid typid) :
    c.findFunction funcid ≠ none := by
  obtain ⟨function, hfunction, -⟩ := h.function
  rw [hfunction]
  exact Option.some_ne_none function

section Congr

variable {c' : Content} (hfunctions : c'.functions = c.functions)
  (hargs : c'.functionArgs = c.functionArgs) (hoperators : c'.operators = c.operators)

include hoperators in
theorem Content.keyColumnOf_congr (schema : Schema) (key : Int × Nat × Nat) :
    c'.keyColumnOf schema key = c.keyColumnOf schema key := by
  have hop : ∀ optype typid funcid, c'.operatorFor optype typid funcid =
      c.operatorFor optype typid funcid := by
    intro optype typid funcid
    rw [operatorFor, operatorFor, findOperator, findOperator, hoperators]
  rw [keyColumnOf, keyColumnOf, hop, hop]

include hfunctions hargs hoperators in
theorem Content.validKey_congr {schema : Schema} {key : Int × Nat × Nat}
    (h : c.ValidKey schema key) : c'.ValidKey schema key := by
  have hop : ∀ {funcid typid : Nat}, c.IsOperator funcid typid → c'.IsOperator funcid typid := by
    intro funcid typid hop
    constructor
    · rw [findFunction, hfunctions]
      exact hop.function
    · intro funcargid hmem
      rw [findFunctionArgs, hargs]
      exact hop.args funcargid hmem
  have hkey := keyColumnOf_congr hoperators schema key
  exact ⟨h.column, by rw [hkey]; exact h.found, by rw [hkey]; exact hop h.equal,
    by rw [hkey]; exact hop h.less⟩

end Congr

theorem keyOperator_checks {optype idxtyp : Nat} (hop : optype = OpType.eq ∨ optype = OpType.lt)
    (htyp : idxtyp = 1 ∨ idxtyp = 2) (typid funcid : Nat) :
    Checks Failure.Logged Failure.Undefined (c.operatorFor optype typid funcid ≠ invalidOid) False
      (c.keyOperator true optype idxtyp typid funcid) (c.operatorFor optype typid funcid) := by
  have hname : ∃ name, IdxType.getName idxtyp = .ok name := by
    rcases htyp with rfl | rfl
    · exact ⟨_, rfl⟩
    · exact ⟨_, rfl⟩
  obtain ⟨name, hname⟩ := hname
  have hfound : ∀ f : Nat, Checks Failure.Logged Failure.Undefined (f ≠ invalidOid) False
      (Content.foundOperator optype idxtyp typid f) f := by
    intro f
    unfold Content.foundOperator
    rw [hname, ok_bind]
    refine .of_refuses (fun hf => if_neg hf) fun hf => ?_
    rw [if_pos (not_not.mp hf)]
    exact ⟨_, logged _, rfl⟩
  have hkind : OpType.isUnary optype = false ∧ OpType.isBinary optype = true := by
    rcases hop with rfl | rfl
    · exact ⟨by decide, by decide⟩
    · exact ⟨by decide, by decide⟩
  unfold Content.keyOperator
  rw [if_pos rfl]
  by_cases hf : funcid = invalidOid
  · rw [if_pos hf, checkOperands, hkind.1, if_neg Bool.false_ne_true, hkind.2]
    by_cases ht : typid = invalidOid
    · rw [Content.operatorFor, if_neg (by rintro ⟨-, hne⟩; exact hne ht), hf]
      refine .of_refuses (fun hne => absurd rfl hne) fun _ => ?_
      rw [Bool.not_true, if_neg Bool.false_ne_true, if_pos (.inl ht)]
      exact ⟨_, logged _, rfl⟩
    · rw [Content.operatorFor, if_pos ⟨hf, ht⟩, Bool.not_true, if_neg Bool.false_ne_true,
        if_neg (by rintro (h | h) <;> exact ht h), ok_bind]
      exact hfound _
  · rw [if_neg hf, Content.operatorFor, if_neg (by rintro ⟨h, -⟩; exact hf h)]
    exact hfound _

theorem checkOperatorArgs_checks (function : SysTableFunction) (opfuncid eqfuncid typid : Nat)
    (funcargids : List Int) :
    Checks Failure.Logged Failure.Undefined (∀ funcargid ∈ funcargids, ∃ functionargs,
        c.findFunctionArgs opfuncid funcargid = some functionargs ∧
          functionargs.funcargtypid = typid) False
      (c.checkOperatorArgs function opfuncid eqfuncid typid funcargids) () := by
  induction funcargids with
  | nil => exact .of_refuses (fun _ => rfl) fun hnot => absurd (by simp) hnot
  | cons funcargid funcargids ih =>
      rw [List.forall_mem_cons]
      unfold Content.checkOperatorArgs
      cases hargs : c.findFunctionArgs opfuncid funcargid with
      | none =>
          refine .of_refuses ?_ fun _ => ⟨_, logged _, rfl⟩
          rintro ⟨⟨functionargs, hnone, -⟩, -⟩
          cases hnone
      | some functionargs =>
          dsimp only
          by_cases htyp : functionargs.funcargtypid = typid
          · rw [if_neg (not_not_intro htyp)]
            exact ih.congr (and_iff_right ⟨functionargs, rfl, htyp⟩) fun _ => Iff.rfl
          · rw [if_pos htyp]
            refine .of_refuses ?_ fun _ => ⟨_, logged _, rfl⟩
            rintro ⟨⟨functionargs', hsome, htyp'⟩, -⟩
            exact absurd (Option.some.inj hsome ▸ htyp') htyp

theorem checkOperator_checks {opfuncid : Nat} (hop : opfuncid ≠ invalidOid)
    (eqfuncid typid : Nat) :
    Checks Failure.Logged Failure.Undefined (c.IsOperator opfuncid typid)
      (c.findFunction opfuncid = none) (c.checkOperator eqfuncid typid opfuncid) () := by
  unfold Content.checkOperator
  rw [if_neg hop]
  cases hfunction : c.findFunction opfuncid with
  | none =>
      exact ⟨fun h => absurd hfunction h.ne_none, fun _ hnot => absurd rfl hnot,
        fun _ _ => ⟨_, ⟨_, rfl⟩, rfl⟩⟩
  | some function =>
      dsimp only
      by_cases hsig : function.funcnargs ≠ 2 ∨ function.funcrettypid ≠ typBool
      · rw [if_pos hsig]
        refine ⟨fun h => ?_, fun _ _ => ⟨_, logged _, rfl⟩, fun _ hnone => (by cases hnone)⟩
        obtain ⟨function', hsome, hnargs, hret⟩ := h.function
        rw [hfunction] at hsome
        cases hsome
        exact (hsig.elim (fun hne => hne hnargs) fun hne => hne hret).elim
      · rw [if_neg hsig]
        rw [not_or, not_not, not_not] at hsig
        refine (checkOperatorArgs_checks function opfuncid eqfuncid typid [0, 1]).congr ?_ ?_
        · exact ⟨fun h => h.args, fun h => ⟨⟨function, hfunction, hsig⟩, h⟩⟩
        · exact fun _ => iff_of_false (fun hnone => by cases hnone) not_false

end Operators

section Keys

variable {c : Content}

theorem checkKeyColumn_inside {schema : Schema} {idxtyp : Nat} (htyp : idxtyp = 1 ∨ idxtyp = 2)
    {key : Int × Nat × Nat} (hcolumn : 0 ≤ key.1 ∧ key.1 < schema.getNumFields) :
    c.checkKeyColumn schema idxtyp key.1 key.2.1 key.2.2 =
      (c.keyOperator true OpType.eq idxtyp (schema.getFieldTypeId key.1.toNat) key.2.1 >>=
        fun eqfuncid =>
      c.keyOperator true OpType.lt idxtyp (schema.getFieldTypeId key.1.toNat) key.2.2 >>=
        fun ltfuncid =>
      c.checkOperator eqfuncid (schema.getFieldTypeId key.1.toNat) eqfuncid >>= fun _ =>
      c.checkOperator eqfuncid (schema.getFieldTypeId key.1.toNat) ltfuncid >>= fun _ =>
      .ok ⟨key.1, schema.getFieldTypeId key.1.toNat, schema.fieldIsNullable key.1.toNat,
        schema.getFieldTypeParam key.1.toNat, eqfuncid, ltfuncid⟩) := by
  have hequal : IdxType.needsEqualOperator idxtyp = .ok true := if_pos htyp
  have hless : IdxType.needsLessOperator idxtyp = .ok true := if_pos htyp
  unfold Content.checkKeyColumn
  rw [if_neg (by omega), if_neg (by omega)]
  dsimp only
  rw [hequal, hless]
  rfl

theorem checkKeyColumn_checks (schema : Schema) {idxtyp : Nat} (htyp : idxtyp = 1 ∨ idxtyp = 2)
    (key : Int × Nat × Nat) :
    Checks Failure.Logged Failure.Undefined (c.ValidKey schema key) (c.FaultyKey schema key)
      (c.checkKeyColumn schema idxtyp key.1 key.2.1 key.2.2) (c.keyColumnOf schema key) := by
  by_cases hlt : key.1 < schema.getNumFields
  · by_cases hneg : key.1 < 0
    · unfold Content.checkKeyColumn
      rw [if_neg (by omega), if_pos hneg]
      refine ⟨fun h => ?_, fun _ hnot => absurd ⟨hlt, .inl hneg⟩ hnot,
        fun _ _ => ⟨_, ⟨_, rfl⟩, rfl⟩⟩
      have := h.column.1
      omega
    · have hcolumn : 0 ≤ key.1 ∧ key.1 < schema.getNumFields := ⟨by omega, hlt⟩
      have hequal := keyOperator_checks (c := c) (.inl rfl) htyp
        (schema.getFieldTypeId key.1.toNat) key.2.1
      have hless := keyOperator_checks (c := c) (.inr rfl) htyp
        (schema.getFieldTypeId key.1.toNat) key.2.2
      rw [checkKeyColumn_inside htyp hcolumn]
      refine Checks.congr (.bind hequal fun he => .bind hless fun hl =>
        .bind (checkOperator_checks he _ _) fun _ => .bind (checkOperator_checks hl _ _) fun _ =>
          .ret (c.keyColumnOf schema key)) ?_ fun _ => ?_
      · constructor
        · exact fun h => ⟨h.found.1, h.found.2, h.equal, h.less, trivial⟩
        · exact fun h => ⟨hcolumn, ⟨h.1, h.2.1⟩, h.2.2.1, h.2.2.2.1⟩
      · constructor
        · rintro ⟨-, hneg' | ⟨he, hl, hnone | ⟨hop, hnone⟩⟩⟩
          · exact absurd hneg' hneg
          · exact .inr ⟨he, .inr ⟨hl, .inl ⟨fun h => h.ne_none hnone, hnone⟩⟩⟩
          · exact .inr ⟨he, .inr ⟨hl, .inr ⟨hop, .inl ⟨fun h => h.ne_none hnone, hnone⟩⟩⟩⟩
        · rintro (⟨-, h⟩ | ⟨he, ⟨-, h⟩ | ⟨hl, ⟨-, hnone⟩ | ⟨hop, ⟨-, hnone⟩ | ⟨-, h⟩⟩⟩⟩)
          · exact h.elim
          · exact h.elim
          · exact ⟨hlt, .inr ⟨he, hl, .inl hnone⟩⟩
          · exact ⟨hlt, .inr ⟨he, hl, .inr ⟨hop, hnone⟩⟩⟩
          · exact h.elim
  · unfold Content.checkKeyColumn
    rw [if_pos (by omega)]
    refine ⟨fun h => absurd h.column.2 hlt, fun _ _ => ⟨_, logged _, rfl⟩, fun _ h => absurd h.1 hlt⟩

theorem checkKeyColumns_eq_mapM (schema : Schema) (idxtyp : Nat) (keys : List (Int × Nat × Nat)) :
    c.checkKeyColumns schema idxtyp keys =
      keys.mapM fun key => c.checkKeyColumn schema idxtyp key.1 key.2.1 key.2.2 := by
  induction keys with
  | nil => rfl
  | cons key keys ih =>
      rw [List.mapM_cons, ← ih]
      rfl

end Keys

section Index

/-- The arguments in front of the key columns: an index type that there is, a file exactly when
the index is not kept in memory, and no more key columns than can be numbered. -/
structure AddIndexArgs.Valid (a : AddIndexArgs) : Prop where
  typ : a.idxtyp = 1 ∨ a.idxtyp = 2
  fid : a.idxtyp = 1 ↔ a.idxfid = invalidFid
  ncols : a.idxcoltabcolids.length ≤ 32767

def AddIndexArgs.nameFor [StrJoin] (a : AddIndexArgs) (desc : TableDesc) : ByteString :=
  if a.idxname = [] then StrJoin.strJoin (desc.table.tabname :: desc.columnNames) (ascii "_")
  else a.idxname

structure Content.AcceptsIndex (c : Content) (desc : TableDesc) (a : AddIndexArgs) : Prop where
  args : a.Valid
  keys : ∀ key ∈ a.keys, c.ValidKey desc.schema key

/-- Nothing is refused in front of a key column that `AddIndex` is at fault on. -/
def Content.FaultyIndex (c : Content) (desc : TableDesc) (a : AddIndexArgs) : Prop :=
  a.Valid ∧ FirstFaulty (c.ValidKey desc.schema) (c.FaultyKey desc.schema) a.keys

def Content.keyColumns (c : Content) (desc : TableDesc) (a : AddIndexArgs) : List KeyColumn :=
  a.keys.map (c.keyColumnOf desc.schema)

variable {c : Content} {builtin : BuiltinTable} {a : AddIndexArgs} {desc : TableDesc}

theorem checkIndexArgs_checks (a : AddIndexArgs) :
    Checks Failure.Logged Failure.Undefined a.Valid False (checkIndexArgs a) () := by
  have htyp : IdxType.isValid a.idxtyp = true ↔ (a.idxtyp = 1 ∨ a.idxtyp = 2) := by
    rw [IdxType.isValid, decide_eq_true_eq]
    omega
  have hvolatile : IdxType.isVolatile a.idxtyp = true ↔ a.idxtyp = 1 := by
    rw [IdxType.isVolatile, decide_eq_true_eq]
  unfold checkIndexArgs
  constructor
  · intro h
    have hfid := h.fid
    rw [if_neg (by simp [htyp.mpr h.typ]), if_neg (by rw [hvolatile]; tauto),
      if_neg (by rw [Bool.not_eq_true', Bool.eq_false_iff, ne_eq, hvolatile]; tauto),
      if_neg (by have := h.ncols; omega)]
  · intro hnot _
    split
    · exact ⟨_, logged _, rfl⟩
    split
    · exact ⟨_, logged _, rfl⟩
    split
    · exact ⟨_, logged _, rfl⟩
    split
    · exact ⟨_, logged _, rfl⟩
    rename_i h1 h2 h3 h4
    rw [Bool.not_eq_true', Bool.not_eq_false, htyp] at h1
    rw [hvolatile] at h2
    rw [Bool.not_eq_true', Bool.eq_false_iff, ne_eq, hvolatile] at h3
    exact absurd ⟨h1, by tauto, by omega⟩ hnot
  · exact fun _ h => h.elim

theorem Content.Typed.length_le (hc : c.Typed) {tabid : Nat} {table : SysTableTable}
    (ht : c.findTable tabid = some table) (hlen : toSize table.tabncols ≤ maxVectorSize) :
    toSize table.tabncols ≤ 32767 := by
  have hncols := hc.tabncols table (List.mem_of_find?_eq_some ht)
  unfold toSize maxVectorSize at *
  omega

theorem indexName_nameFor [StrJoin] (hc : c.Typed)
    (hdesc : c.findTableDesc builtin a.idxtabid = .ok (some desc)) :
    indexName a desc = .ok (a.nameFor desc) := by
  obtain ⟨table, cols, ht, hlen, hmax, -, hcreate⟩ := Content.findTableDesc_ok hdesc
  have hle := hc.length_le ht (hlen ▸ hmax)
  unfold indexName AddIndexArgs.nameFor
  split
  · exact defaultIndexName_eq (Prod.ext hcreate rfl) (hlen ▸ hle)
  · rfl

/-- All checks of `AddIndex` for a table that has a descriptor. -/
theorem checkIndex_checks [StrJoin] (hc : c.Typed)
    (hdesc : c.findTableDesc builtin a.idxtabid = .ok (some desc)) :
    Checks Failure.Logged Failure.Undefined (c.AcceptsIndex desc a) (c.FaultyIndex desc a)
      (c.checkIndex builtin a) (a.nameFor desc, c.keyColumns desc a) := by
  have hcheck : c.checkIndex builtin a = (checkIndexArgs a >>= fun _ =>
      c.checkKeyColumns desc.schema a.idxtyp a.keys >>= fun keys =>
        .ok (a.nameFor desc, keys)) := by
    rw [Content.checkIndex, hdesc, ok_bind]
    dsimp only
    rw [indexName_nameFor hc hdesc, ok_bind]
    rfl
  have hkeys : a.Valid → Checks Failure.Logged Failure.Undefined
      (∀ key ∈ a.keys, c.ValidKey desc.schema key)
      (FirstFaulty (c.ValidKey desc.schema) (c.FaultyKey desc.schema) a.keys)
      (c.checkKeyColumns desc.schema a.idxtyp a.keys) (c.keyColumns desc a) := by
    intro hvalid
    rw [checkKeyColumns_eq_mapM]
    exact .mapM (checkKeyColumn_checks desc.schema hvalid.typ) a.keys
  rw [hcheck]
  refine Checks.congr (.bind (checkIndexArgs_checks a) fun hvalid => .bind (hkeys hvalid) fun _ =>
    .ret (a.nameFor desc, c.keyColumns desc a)) ?_ fun hnot => ?_
  · exact ⟨fun h => ⟨h.args, h.keys, trivial⟩, fun h => ⟨h.1, h.2.1⟩⟩
  · constructor
    · exact fun h => .inr ⟨h.1, .inl ⟨fun hall => hnot ⟨h.1, hall, trivial⟩, h.2⟩⟩
    · rintro (⟨-, h⟩ | ⟨hvalid, ⟨-, hfirst⟩ | ⟨-, h⟩⟩)
      · exact h.elim
      · exact ⟨hvalid, hfirst⟩
      · exact h.elim

end Index

section AddIndex

variable {num : Numbers} {others : BuiltinTable} {st : CatCache}

theorem Holding.addIndex_effect [StrJoin]
    (hst : Holding (findBuiltinFunction num others) st.content st)
    (hcompact : Compact st.content st.files) (n : Nat) {args : AddIndexArgs} {desc : TableDesc}
    (hdesc : st.content.findTableDesc (findBuiltinFunction num others) args.idxtabid =
      .ok (some desc)) :
    AddEffect .index .indexColumn (st.content.AcceptsIndex desc args) st
      (args.indexRow st.files.nextOid (args.nameFor desc))
      (indexColumnRows st.files.nextOid (st.content.keyColumns desc args))
      (addIndex (findBuiltinFunction num others)
        (findTableDesc (findBuiltinFunction num others) (n + 2)) args st) := by
  have hchecks := checkIndex_checks st.content_typed hdesc
  have hout := addIndex_outcome (findBuiltinFunction_compares num others) n hst args
  generalize addIndex _ _ _ _ = out at hout ⊢
  cases hout with
  | refused hrefused hkept =>
      refine .nothing (.inl fun haccepts => ?_) (hkept.unchanged hst)
      rw [hchecks.accepts haccepts] at hrefused
      cases hrefused
  | @accepted idxname keys out haccepted hout =>
      obtain ⟨haccepts, heq⟩ := hchecks.eq_ok_iff.mp haccepted
      cases heq
      exact hout.effect haccepts hst hcompact

/-- In every state that is reached and for a table with a descriptor, `AddIndex` does nothing, or
adds the row and all key columns and returns, or adds the row and the key columns in front of one
that there is no room for. For another table it does nothing. -/
theorem Reached.addIndex_effect [StrJoin] (hnum : num.InRange) (h : Reached num others st) (n : Nat)
    (args : AddIndexArgs) :
    (∀ desc, (findTableDesc (findBuiltinFunction num others) (n + 2) args.idxtabid st).1 =
        .ok (some desc) →
      AddEffect .index .indexColumn (st.content.AcceptsIndex desc args) st
        (args.indexRow st.files.nextOid (args.nameFor desc))
        (indexColumnRows st.files.nextOid (st.content.keyColumns desc args))
        (addIndex (findBuiltinFunction num others)
          (findTableDesc (findBuiltinFunction num others) (n + 2)) args st)) ∧
    ((∀ desc, (findTableDesc (findBuiltinFunction num others) (n + 2) args.idxtabid st).1 ≠
        .ok (some desc)) →
      ∃ e st', addIndex (findBuiltinFunction num others)
        (findTableDesc (findBuiltinFunction num others) (n + 2)) args st = (.error e, st') ∧
        Unchanged st st') := by
  have hcmp := findBuiltinFunction_compares num others
  obtain ⟨hst, hcompact⟩ := h.holding hnum
  have hfinds := hst.looksUp hcmp n
  constructor
  · intro desc hdesc
    rw [hfinds.tableDesc] at hdesc
    exact hst.addIndex_effect hcompact n hdesc
  · intro hnone
    have hout := addIndex_outcome hcmp n hst args
    generalize addIndex _ _ _ _ = out at hout ⊢
    cases hout with
    | refused _ hkept => exact ⟨_, _, rfl, hkept.unchanged hst⟩
    | accepted haccepted _ =>
        unfold Content.checkIndex at haccepted
        obtain ⟨desc?, hdesc, haccepted⟩ := except_bind_eq_ok_iff.mp haccepted
        cases desc? with
        | none => cases haccepted
        | some desc =>
            rw [← hfinds.tableDesc] at hdesc
            exact absurd hdesc (hnone desc)

def outsideIndexArgs : AddIndexArgs :=
  ⟨ascii "outside", tabTable, 1, false, [99], invalidFid, [], []⟩

section

attribute [local instance] documentedStrJoin

theorem Reached.addIndex_effect_sample :
    (∀ desc, (findTableDesc documentedBuiltins 2 tabTable sampleState).1 = .ok (some desc) →
      AddEffect .index .indexColumn (sampleState.content.AcceptsIndex desc outsideIndexArgs)
        sampleState
        (outsideIndexArgs.indexRow sampleState.files.nextOid (outsideIndexArgs.nameFor desc))
        (indexColumnRows sampleState.files.nextOid
          (sampleState.content.keyColumns desc outsideIndexArgs))
        (addIndex documentedBuiltins (findTableDesc documentedBuiltins 2) outsideIndexArgs
          sampleState)) ∧
    ((∀ desc, (findTableDesc documentedBuiltins 2 tabTable sampleState).1 ≠ .ok (some desc)) →
      ∃ e st', addIndex documentedBuiltins (findTableDesc documentedBuiltins 2) outsideIndexArgs
        sampleState = (.error e, st') ∧ Unchanged sampleState st') :=
  sampleState_reached.addIndex_effect documentedNumbers_inRange 0 outsideIndexArgs

end

/-- What `AddIndex` does not accept for a table with a descriptor it refuses with an error that is
logged, and changes nothing, but for a key column that it is at fault on. -/
theorem Reached.addIndex_refuses [StrJoin] (hnum : num.InRange) (h : Reached num others st)
    (n : Nat) {args : AddIndexArgs} {desc : TableDesc}
    (hdesc : (findTableDesc (findBuiltinFunction num others) (n + 2) args.idxtabid st).1 =
      .ok (some desc)) (hnot : ¬ st.content.AcceptsIndex desc args) :
    ∃ e st', addIndex (findBuiltinFunction num others)
      (findTableDesc (findBuiltinFunction num others) (n + 2)) args st = (.error e, st') ∧
      Unchanged st st' ∧ (¬ st.content.FaultyIndex desc args → e.Logged) ∧
      (st.content.FaultyIndex desc args → e.Undefined) := by
  have hcmp := findBuiltinFunction_compares num others
  have hst := (h.holding hnum).1
  rw [(hst.looksUp hcmp n).tableDesc] at hdesc
  have hchecks := checkIndex_checks st.content_typed hdesc
  have hout := addIndex_outcome hcmp n hst args
  generalize addIndex _ _ _ _ = out at hout ⊢
  cases hout with
  | @refused e st' hrefused hkept =>
      refine ⟨e, st', rfl, hkept.unchanged hst, fun hnotFaulty => ?_, fun hfaulty => ?_⟩
      · obtain ⟨e', he', hrefused'⟩ := hchecks.refuses hnot hnotFaulty
        rw [hrefused] at hrefused'
        cases hrefused'
        exact he'
      · obtain ⟨e', he', hrefused'⟩ := hchecks.faults hnot hfaulty
        rw [hrefused] at hrefused'
        cases hrefused'
        exact he'
  | accepted haccepted _ => exact absurd (hchecks.eq_ok_iff.mp haccepted).1 hnot

theorem sampleState_findTableDesc {k : Nat} (hk : k ∈ systabids) : ∃ desc,
    (findTableDesc documentedBuiltins 2 k sampleState).1 = .ok (some desc) ∧
      desc.schema = systableSchema k := by
  have hst := sampleState_holds.1
  obtain ⟨table, ht, -⟩ := hst.stores.describes.tables k hk
  have hdesc := hst.stores.describes.findTableDesc documentedBuiltins hk ht
  refine ⟨{ table, schema := systableSchema k }, ?_, by dsimp only⟩
  rw [← hdesc]
  exact (hst.looksUp (findBuiltinFunction_compares documentedNumbers fun _ => none) 0).tableDesc k

section

attribute [local instance] documentedStrJoin

theorem Reached.addIndex_refuses_sample : ∃ desc e st',
    addIndex documentedBuiltins (findTableDesc documentedBuiltins 2) outsideIndexArgs sampleState =
      (.error e, st') ∧ Unchanged sampleState st' ∧
      (¬ sampleState.content.FaultyIndex desc outsideIndexArgs → e.Logged) ∧
      (sampleState.content.FaultyIndex desc outsideIndexArgs → e.Undefined) := by
  obtain ⟨desc, hdesc, hschema⟩ := sampleState_findTableDesc (k := tabTable) (by decide)
  refine ⟨_, sampleState_reached.addIndex_refuses documentedNumbers_inRange 0 hdesc
    fun haccepts => ?_⟩
  have hmem : ((99 : Int), invalidOid, invalidOid) ∈ outsideIndexArgs.keys := List.mem_cons_self
  have hnum : (systableSchema tabTable).getNumFields = 6 := by decide +kernel
  have hcolumn := (haccepts.keys _ hmem).column.2
  rw [hschema, hnum] at hcolumn
  omega

end

/-- `AddIndex` refuses a key column that is not valid before it inserts anything, with an error
that is logged, or the one that `FindTableDesc` raises for the table. -/
def RejectsInvalid [StrJoin] (builtin : BuiltinTable) (n : Nat) (st : CatCache)
    (args : AddIndexArgs) : Prop :=
  (∀ desc, (findTableDesc builtin n args.idxtabid st).1 = .ok (some desc) →
    ∃ key ∈ args.keys, st.content.InvalidKey desc.schema key) →
  ∃ e st', addIndex builtin (findTableDesc builtin n) args st = (.error e, st') ∧
    (e.Logged ∨ (findTableDesc builtin n args.idxtabid st).1 = .error e) ∧ Unchanged st st'

theorem Holding.addIndex_refused [StrJoin]
    (hst : Holding (findBuiltinFunction num others) st.content st)
    (n : Nat) {args : AddIndexArgs} {e : Failure}
    (hcheck : st.content.checkIndex (findBuiltinFunction num others) args = .error e) :
    ∃ st', addIndex (findBuiltinFunction num others)
      (findTableDesc (findBuiltinFunction num others) (n + 2)) args st = (.error e, st') ∧
      Unchanged st st' := by
  have hout := addIndex_outcome (findBuiltinFunction_compares num others) n hst args
  generalize addIndex _ _ _ _ = out at hout ⊢
  cases hout with
  | refused hrefused hkept =>
      rw [hcheck] at hrefused
      cases hrefused
      exact ⟨_, rfl, hkept.unchanged hst⟩
  | accepted haccepted _ =>
      rw [hcheck] at haccepted
      cases haccepted

theorem not_acceptsIndex {c : Content} {desc : TableDesc} {args : AddIndexArgs}
    (hinvalid : ∃ key ∈ args.keys, c.InvalidKey desc.schema key) : ¬ c.AcceptsIndex desc args := by
  obtain ⟨key, hkey, hinvalid⟩ := hinvalid
  exact fun haccepts => hinvalid.not_validKey (haccepts.keys key hkey)

theorem Reached.not_rejectsInvalid [StrJoin] (hnum : num.InRange) (h : Reached num others st)
    (n : Nat) {args : AddIndexArgs} {desc : TableDesc}
    (hdesc : (findTableDesc (findBuiltinFunction num others) (n + 2) args.idxtabid st).1 =
      .ok (some desc))
    (hinvalid : ∃ key ∈ args.keys, st.content.InvalidKey desc.schema key)
    (hfaulty : st.content.FaultyIndex desc args) :
    ¬ RejectsInvalid (findBuiltinFunction num others) (n + 2) st args := by
  intro hrejects
  obtain ⟨e, st', hrun, hlogged, -⟩ := hrejects fun desc' hdesc' => by
    rw [hdesc] at hdesc'
    cases hdesc'
    exact hinvalid
  obtain ⟨e', st'', hrun', -, -, hundefined⟩ :=
    h.addIndex_refuses hnum n hdesc (not_acceptsIndex hinvalid)
  rw [hrun] at hrun'
  cases hrun'
  obtain ⟨what, rfl⟩ := hundefined hfaulty
  rcases hlogged with ⟨msg, hmsg⟩ | herror
  · cases hmsg
  · rw [hdesc] at herror
    cases herror

/-- In every state that is reached `AddIndex` rejects key columns that are not valid, exactly when
it is not at fault on the first one that it does not accept. -/
theorem Reached.addIndex_rejectsInvalid_iff [StrJoin] (hnum : num.InRange)
    (h : Reached num others st) (n : Nat) (args : AddIndexArgs) :
    RejectsInvalid (findBuiltinFunction num others) (n + 2) st args ↔
      ∀ desc, (findTableDesc (findBuiltinFunction num others) (n + 2) args.idxtabid st).1 =
          .ok (some desc) →
        (∃ key ∈ args.keys, st.content.InvalidKey desc.schema key) →
          ¬ st.content.FaultyIndex desc args := by
  have hst := (h.holding hnum).1
  have hfinds := (hst.looksUp (findBuiltinFunction_compares num others) n).tableDesc args.idxtabid
  constructor
  · exact fun hrejects desc hdesc hinvalid hfaulty =>
      h.not_rejectsInvalid hnum n hdesc hinvalid hfaulty hrejects
  · intro hnotFaulty hinvalid
    rcases hdesc : (findTableDesc (findBuiltinFunction num others) (n + 2) args.idxtabid st).1
      with e | _ | desc
    · have hcheck : st.content.checkIndex (findBuiltinFunction num others) args = .error e := by
        rw [Content.checkIndex, ← hfinds, hdesc]
        rfl
      obtain ⟨st', hrun, hsame⟩ := hst.addIndex_refused n hcheck
      exact ⟨e, st', hrun, .inr rfl, hsame⟩
    · have hcheck : st.content.checkIndex (findBuiltinFunction num others) args =
          .error (.tdbError .kError s!"table {args.idxtabid} does not exist") := by
        rw [Content.checkIndex, ← hfinds, hdesc]
        rfl
      obtain ⟨st', hrun, hsame⟩ := hst.addIndex_refused n hcheck
      exact ⟨_, st', hrun, .inl (logged _), hsame⟩
    · have hinvalid := hinvalid desc hdesc
      obtain ⟨e, st', hrun, hsame, hlogged, -⟩ :=
        h.addIndex_refuses hnum n hdesc (not_acceptsIndex hinvalid)
      exact ⟨e, st', hrun, .inl (hlogged (hnotFaulty desc hdesc hinvalid)), hsame⟩

section

attribute [local instance] documentedStrJoin

/-- The index of a column that `Table` does not have. -/
theorem Reached.addIndex_rejectsInvalid_iff_sample :
    RejectsInvalid documentedBuiltins 2 sampleState outsideIndexArgs ↔
      ∀ desc, (findTableDesc documentedBuiltins 2 tabTable sampleState).1 = .ok (some desc) →
        (∃ key ∈ outsideIndexArgs.keys, sampleState.content.InvalidKey desc.schema key) →
          ¬ sampleState.content.FaultyIndex desc outsideIndexArgs :=
  sampleState_reached.addIndex_rejectsInvalid_iff documentedNumbers_inRange 0 outsideIndexArgs

end

def negativeIndexArgs : AddIndexArgs :=
  ⟨ascii "negative", tabTable, 1, false, [-1], invalidFid, [], []⟩

section

attribute [local instance] documentedStrJoin

/-- It is not rejected: the fields of the schema are read out of bounds. -/
theorem negativeIndex_notRejected :
    ¬ RejectsInvalid documentedBuiltins 2 sampleState negativeIndexArgs := by
  obtain ⟨desc, hdesc, hschema⟩ := sampleState_findTableDesc (k := tabTable) (by decide)
  have hinvalid : sampleState.content.InvalidKey desc.schema
      ((-1 : Int), invalidOid, invalidOid) := .inl (by decide)
  have hvalid : negativeIndexArgs.Valid := ⟨.inl rfl, ⟨fun _ => rfl, fun _ => rfl⟩, by decide⟩
  have hcolumn : (-1 : Int) < (systableSchema tabTable).getNumFields := by decide +kernel
  rw [← hschema] at hcolumn
  have hkeys : negativeIndexArgs.keys = [((-1 : Int), invalidOid, invalidOid)] := by decide
  have hfaulty : sampleState.content.FaultyIndex desc negativeIndexArgs :=
    ⟨hvalid, [], _, [], hkeys, fun key hkey => (by cases hkey), hinvalid.not_validKey, hcolumn,
      .inl (by decide)⟩
  have hmem : ((-1 : Int), invalidOid, invalidOid) ∈ negativeIndexArgs.keys := by
    rw [hkeys]
    exact List.mem_cons_self
  exact sampleState_reached.not_rejectsInvalid documentedNumbers_inRange 0 hdesc
    ⟨_, hmem, hinvalid⟩ hfaulty

end

end AddIndex

end Taco
