import TacoDB.Control.Agree
import TacoDB.Catalog.TypeRows
import TacoDB.Catalog.CatCacheUpdate

/-!
# The parts of the catalog that always come back

Everything the catalog cache is made of, other than the recursion of `FindTableDesc`,
returns or fails: none of its outcomes is `diverges`. For the computations with a state
this is said in the form the sequencing rule of `Agree` uses.
-/

namespace Taco

open Eff

/-- The outcome is a value or a failure other than `diverges`. -/
abbrev Returns {α : Type} (x : Except Failure α) : Prop := Avoids (· = .diverges) x

abbrev ReturnsAlways {σ α : Type} (x : Eff Failure σ α) : Prop :=
  Agree (fun _ => True) (· = .diverges) x x

def BuiltinTable.Returns (builtin : BuiltinTable) : Prop :=
  ∀ oid f info, builtin oid = some f → Taco.Returns (f info)

theorem FunctionCallInfo.arg_returns (info : FunctionCallInfo) (i : Nat) :
    Returns (info.arg i) := by
  unfold FunctionCallInfo.arg
  split
  · exact .ok _
  · exact .error nofun

theorem strictUnary_returns {f : Datum → Nat → Except Failure Datum}
    (hf : ∀ d typparam, Returns (f d typparam)) (info : FunctionCallInfo) :
    Returns (strictUnary f info) :=
  .bind (info.arg_returns 0) fun _ => .ite (.ok _) (hf _ _)

theorem strictBinary_returns (f : Datum → Datum → Bool) (info : FunctionCallInfo) :
    Returns (strictBinary f info) :=
  .bind (info.arg_returns 0) fun _ => .bind (info.arg_returns 1) fun _ => .ite (.ok _) (.ok _)

theorem intIn_returns (num : Numbers) (t : IntType) (name : String) (info : FunctionCallInfo) :
    Returns (intIn num t name info) := by
  refine strictUnary_returns (fun d _ => ?_) info
  split
  · exact .error nofun
  · exact .ok _

theorem boolIn_returns (num : Numbers) (info : FunctionCallInfo) : Returns (boolIn num info) := by
  refine strictUnary_returns (fun d _ => ?_) info
  split
  · exact .error nofun
  · exact .ok _

theorem builtinList_returns (num : Numbers) :
    ∀ entry ∈ builtinList num, ∀ info, Returns (entry.2 info) := by
  have hint := intIn_returns num
  have heq : ∀ f info, Returns (strictBinary f info) := strictBinary_returns
  have hvarchar : ∀ info, Returns (varcharIn info) :=
    strictUnary_returns fun _ _ => .ite (.error nofun) (.ok _)
  have hchar : ∀ info, Returns (charIn info) :=
    strictUnary_returns fun _ _ => .ite (.error nofun) (.ok _)
  have hlen : ∀ info, Returns (charTyplen info) := fun info =>
    .bind (info.arg_returns 0) fun _ => .ite (.error nofun) (.ite (.error nofun) (.ok _))
  simp only [builtinList, List.forall_mem_cons]
  exact ⟨hint _ _, heq _, hint _ _, heq _, hint _ _, heq _, hint _ _, heq _, hint _ _, heq _,
    hint _ _, heq _, hint _ _, heq _, hint _ _, heq _, hint _ _, heq _, boolIn_returns num,
    hvarchar, heq _, heq _, hchar, hlen, fun _ h => nomatch h⟩

theorem documentedBuiltins_returns : documentedBuiltins.Returns := by
  intro oid f info h
  unfold documentedBuiltins findBuiltinFunction at h
  cases hlookup : (builtinList documentedNumbers).lookup oid with
  | none =>
      rw [hlookup] at h
      cases h
  | some g =>
      rw [hlookup] at h
      cases h
      obtain ⟨l₁, l₂, heq, -⟩ := List.lookup_eq_some_iff.mp hlookup
      exact builtinList_returns documentedNumbers (oid, f)
        (by rw [heq]; exact List.mem_append_right _ List.mem_cons_self) info

theorem Datum.load_returns (mem : ByteString) (off : Int) (n : Nat) :
    Returns (Datum.load mem off n) :=
  .ite (.ok _) (.error nofun)

theorem Datum.fromFixedlenBytes_returns (mem : ByteString) (off size : Int) :
    Returns (Datum.fromFixedlenBytes mem off size) :=
  .ite (.bind (Datum.load_returns _ _ _) fun _ => .ok _) (.error nofun)

theorem copyBytes_returns (passbyref : Bool) (len : Int) (src : ByteString) :
    Returns (copyBytes passbyref len src) :=
  .ite (.ite (.error nofun) (.ok _)) (.ite (.ok _) (.ite (.ok _) (.ite (.ok _) (.ok _))))

theorem functionCall_returns {builtin : BuiltinTable} (hbuiltin : builtin.Returns) (oid : Nat)
    (args : List Datum) (typparam : Nat) : Returns (functionCall (builtin oid) args typparam) := by
  cases h : builtin oid with
  | none => exact .error nofun
  | some f => exact hbuiltin oid f _ h

theorem assert_returns {σ : Type} {I : σ → Prop} (cond : Bool) (text : String) :
    Agree I (· = .diverges) (assert cond text) (assert cond text) :=
  .ite (.ret _) (.failure nofun)

theorem logError_returns {σ α : Type} {I : σ → Prop} (msg : String) :
    Agree I (· = .diverges) (logError msg : Eff Failure σ α) (logError msg) :=
  .failure nofun

theorem logFatal_returns {σ α : Type} {I : σ → Prop} (msg : String) :
    Agree I (· = .diverges) (logFatal msg : Eff Failure σ α) (logFatal msg) :=
  .failure nofun

namespace Schema

section

variable (s : Schema) (payload : ByteString)

theorem varlenEnd_returns (i : Int) : Returns (s.varlenEnd payload i) :=
  .bind (Datum.load_returns _ _ _) fun _ => .ok _

theorem varlenBegin_returns (i : Int) : Returns (s.varlenBegin payload i) :=
  .ite (varlenEnd_returns s payload _) (.ok _)

theorem nullBit_returns (id : Int) : Returns (s.nullBit payload id) :=
  .bind (Datum.load_returns _ _ _) fun _ => .ok _

theorem assertOffset_returns (off : Int) : Returns (assertOffset off) :=
  .ite (.ok _) (.error nofun)

theorem skipNullableFixed_returns (fieldId : Nat) (is : List Nat) (off : Int) :
    Returns (s.skipNullableFixed payload fieldId is off) := by
  induction is generalizing off with
  | nil => exact .error nofun
  | cons i is ih =>
      refine .ite (.ok _) (.bind (nullBit_returns s payload _) fun _ => .ite (ih _) ?_)
      exact .bind (assertOffset_returns _) fun _ => .bind (assertOffset_returns _) fun _ => ih _

theorem getOffsetAndLength_returns (fieldId : Nat) :
    Returns (s.getOffsetAndLength fieldId payload) := by
  refine .ite (.ok _) (.ite ?_ ?_)
  · exact .bind (varlenEnd_returns s payload _) fun _ =>
      .bind (varlenBegin_returns s payload _) fun _ =>
      .bind (assertOffset_returns _) fun _ => .ok _
  · exact .bind (varlenBegin_returns s payload _) fun _ =>
      .bind (skipNullableFixed_returns s payload _ _ _) fun _ =>
      .bind (assertOffset_returns _) fun _ => .ok _

theorem fieldIsNull_returns (fieldId : Nat) : Returns (s.fieldIsNull fieldId payload) :=
  .ite (.ok _) (nullBit_returns s payload _)

theorem getField_returns (fieldId : Nat) : Returns (s.getField fieldId payload) := by
  refine .bind (fieldIsNull_returns s payload _) fun _ => .ite (.ok _) ?_
  refine .bind (getOffsetAndLength_returns s payload _) fun _ => ?_
  refine .ite ?_ (.ite ?_ (Datum.fromFixedlenBytes_returns _ _ _))
  · exact .bind (Datum.load_returns _ _ _) fun _ => .ok _
  · exact .bind (Datum.load_returns _ _ _) fun _ => .ok _

theorem dissemblePayload_returns : Returns (s.dissemblePayload payload) :=
  .mapM (fun _ => getField_returns s payload _) _

end

theorem getFieldName_returns (s : Schema) (fieldId : Nat) : Returns (s.getFieldName fieldId) := by
  refine .ite (.ok _) ?_
  split
  · exact .ok _
  · exact .error nofun

theorem resolveTyplen_returns {builtin : BuiltinTable} (hbuiltin : builtin.Returns)
    (typ : SysTableType) (typparam : Nat) : Returns (resolveTyplen builtin typ typparam) := by
  refine .ite (.ite (.ok _) (.error nofun)) (.ite ?_ (.ite (.ok _) (.error nofun)))
  exact .bind (functionCall_returns hbuiltin _ _ _) fun _ => .ite (.error nofun) (.ok _)

theorem setReorderIdx_returns (idx : List Nat) (seqno : Int) (i : Nat) :
    Returns (setReorderIdx idx seqno i) :=
  .ite (.ok _) (.error nofun)

theorem assignField_returns (nfix nvar nnullvar i : Nat) (f : FieldInfo) (idx : List Nat) :
    Returns (assignField nfix nvar nnullvar i f idx) := by
  refine .ite ?_ (.ite ?_ (.ok _))
  · exact .bind (setReorderIdx_returns _ _ _) fun _ => .ok _
  · exact .bind (setReorderIdx_returns _ _ _) fun _ => .ok _

theorem assignFields_returns (nfix nvar nnullvar : Nat) (fs : List FieldInfo) (i : Nat)
    (idx : List Nat) : Returns (assignFields nfix nvar nnullvar fs i idx) := by
  induction fs generalizing i idx with
  | nil => exact .ok _
  | cons f fs ih =>
      exact .bind (assignField_returns _ _ _ _ _ _) fun _ => .bind (ih _ _) fun _ => .ok _

section

variable {σ : Type} {I : σ → Prop} {findType findType' : Nat → Eff Failure σ (Option SysTableType)}
  {builtin : BuiltinTable}

/-- The first loop of the layout computation asks for types only. -/
theorem scanFields_agree (hbuiltin : builtin.Returns)
    (hfind : ∀ oid, Agree I (· = .diverges) (findType oid) (findType' oid)) (fs : List FieldInfo)
    (sc : LayoutScan) :
    Agree I (· = .diverges) (scanFields findType builtin fs sc)
      (scanFields findType' builtin fs sc) := by
  induction fs generalizing sc with
  | nil => exact .ret _
  | cons f fs ih =>
      unfold scanFields
      refine .bind (hfind _) fun typ? => ?_
      cases typ? with
      | none =>
          refine .failure fun hdiv => ?_
          cases hdiv
      | some typ =>
          refine .bind (.lift (resolveTyplen_returns hbuiltin _ _)) fun typlen => ?_
          cases scanField typ typlen f sc with
          | error sc' => exact .ret _
          | ok sc' => exact ih sc'

theorem computeLayoutImpl_agree (hbuiltin : builtin.Returns)
    (hfind : ∀ oid, Agree I (· = .diverges) (findType oid) (findType' oid)) (s : Schema) :
    Agree I (· = .diverges) (s.computeLayoutImpl findType builtin)
      (s.computeLayoutImpl findType' builtin) := by
  unfold computeLayoutImpl
  refine .ite (.failure nofun) (.bind (scanFields_agree hbuiltin hfind _ _) fun r => ?_)
  cases r with
  | error sc => exact .ret _
  | ok sc =>
      refine .ite (.ite (.ret _) (.ret _)) ?_
      exact .bind (.lift (assignFields_returns _ _ _ _ _ _)) fun _ => .ret _

end

section

variable (s : Schema) (initLen : Int)

theorem store_returns (pos : Int) (bytes : ByteString) : ReturnsAlways (store pos bytes) := by
  intro buf _
  refine ⟨rfl, trivial, ?_⟩
  unfold store
  split
  · exact .ok _
  · exact .error nofun

theorem resizeBuf_returns (n : Int) : ReturnsAlways (resizeBuf n) :=
  .modify fun _ _ => trivial

theorem setNullBit_returns (pos id : Int) : ReturnsAlways (setNullBit pos id) :=
  .bind .state fun _ => .bind (.lift (Datum.load_returns _ _ _)) fun _ => store_returns _ _

theorem setVarlenEnd_returns (f : FieldInfo) (fin : Int) :
    ReturnsAlways (setVarlenEnd s initLen f fin) :=
  .ite (store_returns _ _) (.ret _)

theorem writeStored_returns (f : FieldInfo) (d : Datum) (off : Int) :
    ReturnsAlways (writeStored s initLen f d off) := by
  refine .ite (.ret _) (.bind (setVarlenEnd_returns s initLen _ _) fun _ => .ite (.ret _) ?_)
  refine .bind .state fun _ => .bind (assert_returns _ _) fun _ => ?_
  exact .bind (resizeBuf_returns _) fun _ => .bind (.lift (copyBytes_returns _ _ _)) fun _ =>
    .bind (store_returns _ _) fun _ => .ret _

theorem writeField_returns (fieldId : Nat) (f : FieldInfo) (d : Datum) (off : Int) :
    ReturnsAlways (writeField s initLen fieldId f d off) := by
  refine .ite (.ite (logError_returns _) ?_) (.ite ?_ (writeStored_returns s initLen _ _ _))
  · exact .bind (.lift (copyBytes_returns _ _ _)) fun _ => .bind (store_returns _ _) fun _ => .ret _
  · exact .bind (setNullBit_returns _ _) fun _ =>
      .bind (setVarlenEnd_returns s initLen _ _) fun _ => .ret _

theorem writeFields_returns (data : List Datum) (is : List Nat) (off : Int) :
    ReturnsAlways (writeFields s initLen data is off) := by
  induction is generalizing off with
  | nil => exact .ret _
  | cons i is ih =>
      unfold writeFields
      cases data[i]? with
      | none => exact .failure nofun
      | some d =>
          refine .bind (writeField_returns s initLen _ _ _ _) fun off? => ?_
          cases off? with
          | none => exact .ret _
          | some off' => exact ih off'

theorem writePayloadToBuffer_returns (data : List Datum) :
    ReturnsAlways (s.writePayloadToBuffer data) := by
  refine .bind .state fun _ => .ite (.ret _) (.ite (.ret _) (.ite (.ret _) ?_))
  refine .bind (resizeBuf_returns _) fun _ => .bind (writeFields_returns s _ _ _ _) fun off? => ?_
  cases off? with
  | none => exact .ret _
  | some off =>
      refine .bind .state fun _ => .bind (assert_returns _ _) fun _ => .ite (.ret _) ?_
      split
      · exact .bind (resizeBuf_returns _) fun _ => .ret _
      · exact .ret _

end

end Schema

theorem openCatalogFile_returns (fid : Nat) : ReturnsAlways (openCatalogFile fid) :=
  .bind .state fun _ => .ite (logFatal_returns _) (.ret _)

theorem systable_returns (fid : Nat) : ReturnsAlways (systable fid) := by
  refine .bind .state fun st => ?_
  cases st.file? fid with
  | none => exact .failure nofun
  | some f => exact .ret _

theorem Record.content_returns (rec : Record) : Returns rec.content :=
  .ite (.error nofun) (Datum.load_returns _ _ _)

theorem appendRecord_returns (fh : Nat) (rec : Record) : ReturnsAlways (appendRecord fh rec) := by
  refine .bind .state fun st => ?_
  cases st.file? fh with
  | none => exact logFatal_returns _
  | some f =>
      refine .ite (logFatal_returns _) (.bind (assert_returns _ _) fun _ => ?_)
      refine .bind (.lift (Record.content_returns rec)) fun _ => .ite (.failure nofun) ?_
      exact .bind (.modify fun _ _ => trivial) fun _ => .ret _

theorem iterateCatEntry_returns (fh : Nat) : ReturnsAlways (iterateCatEntry fh) :=
  .bind (systable_returns fh) fun _ => .ret _

theorem validAt_returns (f : InmemFile) (idx : Nat) : Returns (validAt f idx) := by
  unfold validAt
  split
  · exact .error nofun
  · exact .ok _

theorem nextValid_returns (f : InmemFile) (idx n : Nat) : Returns (nextValid f idx n) := by
  induction n generalizing idx with
  | zero => exact .ok _
  | succ n ih => exact .bind (validAt_returns f idx) fun _ => .ite (.ok _) (ih _)

theorem nextCatEntry_returns (iter : CatFileIterator) : ReturnsAlways (nextCatEntry iter) := by
  refine .bind (systable_returns _) fun f => .bind (assert_returns _ _) fun _ => ?_
  refine .bind (.lift (nextValid_returns _ _ _)) fun idx? => ?_
  cases idx? with
  | none => exact .ret _
  | some idx => exact .ret _

theorem currentEntry_returns (iter : CatFileIterator) : ReturnsAlways (currentEntry iter) := by
  refine .bind (systable_returns _) fun f => .bind (.lift (validAt_returns _ _)) fun _ => ?_
  refine .bind (assert_returns _ _) fun _ => ?_
  cases f.offsets[iter.curIdx]? with
  | none => exact .failure nofun
  | some off => exact .ret _

theorem getCurrentCatEntry_returns (iter : CatFileIterator) :
    ReturnsAlways (getCurrentCatEntry iter) :=
  .bind (currentEntry_returns iter) fun _ => .ret _

theorem datumAt_returns (data : List Datum) (i : Nat) : Returns (datumAt data i) := by
  unfold datumAt
  split
  · exact .ok _
  · exact .error nofun

theorem columnAt_returns {α : Type} (get : Datum → α) (data : List Datum) (i : Nat) :
    Returns (do return get (← datumAt data i)) :=
  .bind (datumAt_returns data i) fun _ => .ok _

theorem SysTableStruct.create_returns (tabid : Nat) (data : List Datum) :
    Returns (SysTableStruct.create tabid data) := by
  have hcol : ∀ {α β : Type} (get : Datum → α) (i : Nat) {f : α → Except Failure β},
      (∀ a, Returns (f a)) → Returns ((do return get (← datumAt data i)) >>= f) :=
    fun get i _ hf => .bind (columnAt_returns get data i) hf
  refine .ite (.map _ ?_) (.ite (.map _ ?_) (.ite (.map _ ?_) (.ite (.map _ ?_) (.ite (.map _ ?_)
    (.ite (.map _ ?_) (.ite (.map _ ?_) (.ite (.map _ ?_) (.error nofun))))))))
  · exact hcol _ 0 fun _ => hcol _ 1 fun _ => hcol _ 2 fun _ => hcol _ 3 fun _ => hcol _ 4 fun _ =>
      hcol _ 5 fun _ => .ok _
  · exact hcol _ 0 fun _ => hcol _ 1 fun _ => hcol _ 2 fun _ => hcol _ 3 fun _ => hcol _ 4 fun _ =>
      hcol _ 5 fun _ => hcol _ 6 fun _ => hcol _ 7 fun _ => hcol _ 8 fun _ => .ok _
  · exact hcol _ 0 fun _ => hcol _ 1 fun _ => hcol _ 2 fun _ => hcol _ 3 fun _ => hcol _ 4 fun _ =>
      hcol _ 5 fun _ => hcol _ 6 fun _ => .ok _
  · exact hcol _ 0 fun _ => hcol _ 1 fun _ => hcol _ 2 fun _ => hcol _ 3 fun _ => .ok _
  · exact hcol _ 0 fun _ => hcol _ 1 fun _ => hcol _ 2 fun _ => .ok _
  · exact hcol _ 0 fun _ => hcol _ 1 fun _ => hcol _ 2 fun _ => hcol _ 3 fun _ => .ok _
  · exact hcol _ 0 fun _ => hcol _ 1 fun _ => hcol _ 2 fun _ => hcol _ 3 fun _ => hcol _ 4 fun _ =>
      hcol _ 5 fun _ => hcol _ 6 fun _ => .ok _
  · exact hcol _ 0 fun _ => hcol _ 1 fun _ => hcol _ 2 fun _ => hcol _ 3 fun _ => hcol _ 4 fun _ =>
      hcol _ 5 fun _ => hcol _ 6 fun _ => hcol _ 7 fun _ => .ok _

namespace SysTableStruct

variable (row : SysTableStruct)

theorem asTable_returns : Returns row.asTable := by
  cases row <;> first | exact .ok _ | exact .error nofun

theorem asType_returns : Returns row.asType := by
  cases row <;> first | exact .ok _ | exact .error nofun

theorem asColumn_returns : Returns row.asColumn := by
  cases row <;> first | exact .ok _ | exact .error nofun

theorem asFunction_returns : Returns row.asFunction := by
  cases row <;> first | exact .ok _ | exact .error nofun

theorem asFunctionArgs_returns : Returns row.asFunctionArgs := by
  cases row <;> first | exact .ok _ | exact .error nofun

theorem asOperator_returns : Returns row.asOperator := by
  cases row <;> first | exact .ok _ | exact .error nofun

theorem asIndex_returns : Returns row.asIndex := by
  cases row <;> first | exact .ok _ | exact .error nofun

theorem asIndexColumn_returns : Returns row.asIndexColumn := by
  cases row <;> first | exact .ok _ | exact .error nofun

end SysTableStruct

theorem checkIfEqual_returns {builtin : BuiltinTable} (hbuiltin : builtin.Returns)
    (recbuf : ByteString) (schema : Schema) (preds : List Predicate) :
    Returns (checkIfEqual builtin recbuf schema preds) := by
  induction preds with
  | nil => exact .ok _
  | cons p ps ih =>
      refine .bind (Schema.getField_returns _ _ _) fun _ => ?_
      exact .bind (functionCall_returns hbuiltin _ _ _) fun _ =>
        .ite (.error nofun) (.ite ih (.ok _))

theorem ColumnArrays.fill_returns (tabid : Nat) (cols : List SysTableColumn) (a : ColumnArrays) :
    Returns (ColumnArrays.fill tabid cols a) := by
  induction cols generalizing a with
  | nil => exact .ok _
  | cons col cols ih => exact .ite (.ok _) (.bind (.ite (.ok _) (.error nofun)) fun a' => ih a')

theorem rowPayload_returns (tabdesc : TableDesc) (data : List Datum) :
    Returns (rowPayload tabdesc data) := by
  have hwrite := (Schema.writePayloadToBuffer_returns tabdesc.schema data [] trivial).2.2
  unfold rowPayload
  split
  · rename_i e _ heq
    rw [heq] at hwrite
    exact .error (hwrite e rfl)
  · exact .ite (.error nofun) (.ok _)

theorem AddTableArgs.checkSizes_returns (a : AddTableArgs) : Returns a.checkSizes := by
  have hvec : ∀ {α : Type} (what : String) (n : Int) (default : Except Failure (List α))
      (l : List α), Returns default → Returns (checkedVector what n default l) :=
    fun _ _ _ _ h => .ite h (.ite (.error nofun) (.ok _))
  have hdef : ∀ {α : Type} (l : List α) (n : Int) (x : α), Returns (resizeDefault l n x) :=
    fun _ _ _ => .ite (.error nofun) (.ok _)
  refine .ite (.error nofun) (.ite (.error nofun) (.ite (.error nofun) ?_))
  exact .bind (hvec _ _ _ _ (hdef _ _ _)) fun _ => .bind (hvec _ _ _ _ (.ok _)) fun _ =>
    .bind (hvec _ _ _ _ (hdef _ _ _)) fun _ => .bind (hvec _ _ _ _ (hdef _ _ _)) fun _ => .ok _

namespace IdxType

theorem getName_returns (idxtyp : Nat) : Returns (getName idxtyp) :=
  .ite (.ok _) (.ite (.ok _) (.error nofun))

theorem needsEqualOperator_returns (idxtyp : Nat) : Returns (needsEqualOperator idxtyp) :=
  .ite (.ok _) (.error nofun)

theorem needsLessOperator_returns (idxtyp : Nat) : Returns (needsLessOperator idxtyp) :=
  .ite (.ok _) (.error nofun)

end IdxType

namespace CatCache

theorem fieldNamesFrom_returns (schema : Schema) (i n : Nat) :
    Returns (fieldNamesFrom schema i n) := by
  induction n generalizing i with
  | zero => exact .ok _
  | succ n ih =>
      exact .bind (Schema.getFieldName_returns _ _) fun _ => .bind (ih _) fun _ => .ok _

theorem indexName_returns [StrJoin] (a : AddIndexArgs) (tabdesc : TableDesc) :
    Returns (indexName a tabdesc) :=
  .ite (.bind (fieldNamesFrom_returns _ _ _) fun _ => .ok _) (.ok _)

theorem checkIndexArgs_returns (a : AddIndexArgs) : Returns (checkIndexArgs a) :=
  .ite (.error nofun) (.ite (.error nofun) (.ite (.error nofun) (.ite (.error nofun) (.ok _))))

end CatCache

end Taco
