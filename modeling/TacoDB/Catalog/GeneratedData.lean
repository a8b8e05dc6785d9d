import TacoDB.Catalog.Coherent
import TacoDB.Catalog.FinishInitCatalog
import TacoDB.Catalog.InitData
import TacoDB.Utils.IntegerText

/-!
# The init data file of a content

For each systable the generator prints a table line, with the types and the type parameters of
its columns, and a data line for each of its rows. The reader finds in the file what it was
printed from when each value is of the type of its column and no name has a byte in it that ends
a line or is special in a quoted string.
-/

namespace Taco

open InitDataFileReader Schema Quoting Initoids

def SysTableStruct.values : SysTableStruct → List RowValue
  | .table r => [.int r.tabid, .bool r.tabissys, .bool r.tabisvarlen, .int r.tabncols,
      .int r.tabfid, .varchar r.tabname]
  | .type r => [.int r.typid, .int r.typlen, .bool r.typisvarlen, .bool r.typbyref,
      .int r.typalign, .varchar r.typname, .int r.typinfunc, .int r.typoutfunc,
      .int r.typlenfunc]
  | .column r => [.int r.coltabid, .int r.colid, .bool r.colisarray, .bool r.colisnullable,
      .int r.coltypid, .int r.coltypparam, .varchar r.colname]
  | .function r => [.int r.funcid, .int r.funcnargs, .int r.funcrettypid, .varchar r.funcname]
  | .functionArgs r => [.int r.funcid, .int r.funcargid, .int r.funcargtypid]
  | .operator r => [.int r.optype, .int r.opfuncid, .int r.oparg0typid, .int r.oparg1typid]
  | .index r => [.int r.idxid, .int r.idxtabid, .int r.idxtyp, .bool r.idxunique, .int r.idxncols,
      .int r.idxfid, .varchar r.idxname]
  | .indexColumn r => [.int r.idxcolidxid, .int r.idxcolid, .int r.idxcoltabcolid,
      .int r.idxcoltypid, .bool r.idxcolisnullable, .int r.idxcoltypparam,
      .int r.idxcoleqfuncid, .int r.idxcolltfuncid]

def headerLine (systabid : Nat) : ByteString :=
  ascii "table" ++ (RowValue.int systabid).printed ++ (systableColumnsOf systabid).flatMap
    fun col => (RowValue.int col.coltypid).printed ++ (RowValue.int col.coltypparam).printed

def Content.initData (c : Content) : ByteString :=
  systabids.flatMap fun k =>
    (headerLine k :: (c.rows k).map fun row => dataLine row.values).flatMap (· ++ [charNewline])

def columnIntTypes : List (Nat × IntType) :=
  [(typOid, ⟨false, 32⟩), (typInt2, ⟨true, 16⟩), (typUint1, ⟨false, 8⟩), (typUint4, ⟨false, 32⟩),
    (typUint8, ⟨false, 64⟩)]

namespace RowValue

/-- A value that a column of this type can have, and that the generator prints as the reader
expects it. -/
def Suits (typid typparam : Nat) : RowValue → Prop
  | .int n => ∃ t ∈ columnIntTypes, t.1 = typid ∧ t.2.Contains n
  | .bool _ => typid = typBool
  | .varchar v => typid = typVarchar ∧ v.length ≤ typparam ∧
      ∀ c ∈ v, c ≠ charNewline ∧ ¬ Special charQuote charBackslash c

instance (v : ByteString) :
    Decidable (∀ c ∈ v, c ≠ charNewline ∧ ¬ Special charQuote charBackslash c) :=
  decidable_of_iff
    ((v.all fun c => c ≠ charNewline ∧ ¬ Special charQuote charBackslash c) = true) (by simp)

instance (typid typparam : Nat) (v : RowValue) : Decidable (v.Suits typid typparam) :=
  match v with
  | .int _ => inferInstanceAs (Decidable (∃ t ∈ columnIntTypes, _))
  | .bool _ => inferInstanceAs (Decidable (_ = _))
  | .varchar _ => inferInstanceAs (Decidable (_ ∧ _ ∧ _))

def datum : RowValue → Datum
  | .int n => .ofInt n
  | .bool v => .ofBool v
  | .varchar v => .ofBytes v

end RowValue

structure Numbers.ReadsPrinted (num : Numbers) : Prop where
  ints : ∀ t : IntType, t.width = 32 ∨ t.width = 64 → ∀ x, t.Contains x →
    num.simpleAtoi t (ascii (toString x)) = some x
  bools : ∀ v : Bool, num.simpleAtob (RowValue.bool v).text = some v

section Values

variable {num : Numbers} {others : BuiltinTable} {s : Schema} {i : Nat}

theorem ascii_toString (x : Int) : ascii (toString x) = decimalText x := by
  cases x with
  | ofNat m =>
      rw [decimalText, if_neg (by simp), digitsText]
      change ((toString m).toList.map _) = _
      rw [toList_toString_nat]
      rfl
  | negSucc m =>
      rw [decimalText, if_pos (Int.negSucc_lt_zero m), digitsText, ascii, toList_toString_negSucc,
        toList_toString_nat, List.map_cons, Int.natAbs_negSucc]
      rfl

theorem inputValue_int (hnum : num.ReadsPrinted) {t : Nat × IntType} (ht : t ∈ columnIntTypes)
    (htyp : t.1 = s.getFieldTypeId i) {n : Int} (hn : t.2.Contains n) :
    inputValue (findBuiltinFunction num others) s i (RowValue.int n).text = some (.ofInt n) := by
  have hall : ∀ t ∈ columnIntTypes, (t.2.width ≤ 16 ∨ t.2.width = 32 ∨ t.2.width = 64) ∧
      ∃ typ name, findBootstrapType t.1 = some typ ∧
        findBuiltinFunction num others typ.typinfunc = some (intIn num t.2 name) := by
    simp only [columnIntTypes, List.forall_mem_cons, List.not_mem_nil, false_implies,
      implies_true, and_true]
    exact ⟨⟨by decide, .byValue 100 "OID" 4 740 741, _, by decide +kernel, rfl⟩,
      ⟨by decide, .byValue 103 "INT2" 2 530 531, _, by decide +kernel, rfl⟩,
      ⟨by decide, .byValue 106 "UINT1" 1 620 621, _, by decide +kernel, rfl⟩,
      ⟨by decide, .byValue 108 "UINT4" 4 680 681, _, by decide +kernel, rfl⟩,
      ⟨by decide, .byValue 109 "UINT8" 8 710 711, _, by decide +kernel, rfl⟩⟩
  obtain ⟨hw, typ, name, hfind, hfunc⟩ := hall t ht
  have hbounds := hn.bounds (by omega)
  have hbytes : (Datum.fromVarlenBytes (RowValue.int n).text).getVarlenBytes =
      ascii (toString n) := by
    refine Datum.getVarlenBytes_fromVarlenBytes ?_
    have := length_decimalText hbounds.1 hbounds.2
    rw [RowValue.text, ascii_toString]
    omega
  have hparse : num.simpleAtoiWrapper t.2 (ascii (toString n)) = some n := by
    unfold Numbers.simpleAtoiWrapper
    by_cases hshort : t.2.width ≤ 16
    · rw [if_pos hshort, hnum.ints ⟨true, 32⟩ (.inl rfl) n (hn.int32 hshort)]
      change (if n < t.2.min then none else if n > t.2.max then none else some n) = _
      rw [if_neg (not_lt.mpr hn.1), if_neg (not_lt.mpr hn.2)]
    · rw [if_neg hshort, hnum.ints t.2 (hw.resolve_left hshort) n hn]
  have hcall : functionCall (findBuiltinFunction num others typ.typinfunc)
      [Datum.fromVarlenBytes (RowValue.int n).text] (s.getFieldTypeParam i) =
        .ok (.ofInt n) := by
    rw [hfunc, functionCall]
    refine (strictUnary_of_notNull rfl _).trans ?_
    rw [hbytes, hparse]
  rw [inputValue, ← htyp, hfind]
  dsimp only
  rw [hcall]
  rfl

theorem inputValue_bool (hnum : num.ReadsPrinted) (htyp : s.getFieldTypeId i = typBool) (v : Bool) :
    inputValue (findBuiltinFunction num others) s i (RowValue.bool v).text =
      some (.ofBool v) := by
  have hfind : findBootstrapType typBool = some (.byValue 101 "BOOL" 1 770 771) := by
    decide +kernel
  have hbytes : (Datum.fromVarlenBytes (RowValue.bool v).text).getVarlenBytes =
      (RowValue.bool v).text :=
    Datum.getVarlenBytes_fromVarlenBytes (by cases v <;> decide)
  have hcall : functionCall (findBuiltinFunction num others 770)
      [Datum.fromVarlenBytes (RowValue.bool v).text] (s.getFieldTypeParam i) =
        .ok (.ofBool v) := by
    change boolIn num _ = _
    refine (strictUnary_of_notNull rfl _).trans ?_
    rw [hbytes, hnum.bools v]
  rw [inputValue, htyp, hfind]
  dsimp only [SysTableType.byValue]
  rw [hcall]
  rfl

theorem inputValue_varchar (htyp : s.getFieldTypeId i = typVarchar) {v : ByteString}
    (hlen : v.length ≤ s.getFieldTypeParam i) (hlt : v.length < 2 ^ 32) :
    inputValue (findBuiltinFunction num others) s i (RowValue.varchar v).text =
      some (.ofBytes v) := by
  have hvarchar : ∃ typ ∈ findBootstrapType typVarchar, typ.typinfunc = 860 := by decide +kernel
  obtain ⟨typ, hfind, hfunc⟩ := hvarchar
  have hbytes : (Datum.fromVarlenBytes v).getVarlenBytes = v :=
    Datum.getVarlenBytes_fromVarlenBytes hlt
  have hle : (removeTrailingSpace v).length ≤ s.getFieldTypeParam i := by
    rw [removeTrailingSpace_eq]
    exact (Padding.length_trimmed_le 0x20 v).trans hlen
  have hcall : functionCall (findBuiltinFunction num others typ.typinfunc)
      [Datum.fromVarlenBytes v] (s.getFieldTypeParam i) = .ok (.ofBytes v) := by
    rw [hfunc]
    change varcharIn _ = _
    rw [varcharIn_eq rfl, hbytes, if_pos hle, List.take_of_length_le hlen]
  rw [inputValue, htyp, Option.mem_def.mp hfind]
  dsimp only
  rw [RowValue.text, hcall]
  rfl

theorem inputValue_of_suits (hnum : num.ReadsPrinted) {v : RowValue}
    (hv : v.Suits (s.getFieldTypeId i) (s.getFieldTypeParam i))
    (hparam : s.getFieldTypeParam i < 2 ^ 32) :
    inputValue (findBuiltinFunction num others) s i v.text = some v.datum := by
  cases v with
  | int n =>
      obtain ⟨t, ht, htyp, hn⟩ := hv
      exact inputValue_int hnum ht htyp hn
  | bool v => exact inputValue_bool hnum hv v
  | varchar v => exact inputValue_varchar hv.1 hv.2.1 (lt_of_le_of_lt hv.2.1 hparam)

theorem inputValues_of_suits (hnum : num.ReadsPrinted) {row : List RowValue}
    (hrow : ∀ j v, row[j]? = some v →
      v.Suits (s.getFieldTypeId (i + j)) (s.getFieldTypeParam (i + j)) ∧
        s.getFieldTypeParam (i + j) < 2 ^ 32) :
    inputValues (findBuiltinFunction num others) s i (row.map RowValue.text) =
      some (row.map RowValue.datum) := by
  induction row generalizing i with
  | nil => rfl
  | cons v row ih =>
      obtain ⟨hv, hparam⟩ := hrow 0 v rfl
      have hrest : ∀ j u, row[j]? = some u →
          u.Suits (s.getFieldTypeId (i + 1 + j)) (s.getFieldTypeParam (i + 1 + j)) ∧
            s.getFieldTypeParam (i + 1 + j) < 2 ^ 32 := by
        intro j u hu
        rw [Nat.add_right_comm]
        exact hrow (j + 1) u hu
      exact inputValues_cons.mpr
        ⟨_, _, inputValue_of_suits hnum hv hparam, ih hrest, rfl⟩

end Values

section Lines

theorem RowValue.Suits.unescaped {typid typparam : Nat} {v : RowValue} (h : v.Suits typid typparam) :
    v.Unescaped := by
  cases v with
  | int n => trivial
  | bool v => trivial
  | varchar v => exact fun c hc => (h.2.2 c hc).2

theorem newline_not_mem_int (n : Int) : charNewline ∉ (RowValue.int n).printed := by
  intro hmem
  rcases List.mem_append.mp hmem with hmem | hmem
  · exact absurd hmem (by decide)
  · obtain ⟨c, hc, heq⟩ := List.mem_map.mp hmem
    rcases mem_toString hc with hdigit | rfl
    · have hval : 48 ≤ c.val ∧ c.val ≤ 57 := by simpa [Char.isDigit] using hdigit
      have hle : 48 ≤ c.toNat := UInt32.le_iff_toNat_le.mp hval.1
      have hle' : c.toNat ≤ 57 := UInt32.le_iff_toNat_le.mp hval.2
      have hbyte := congrArg BitVec.toNat heq
      rw [BitVec.toNat_ofNat, show charNewline.toNat = 10 from rfl] at hbyte
      omega
    · exact absurd heq (by decide)

theorem RowValue.Suits.newline_not_mem {typid typparam : Nat} {v : RowValue}
    (h : v.Suits typid typparam) : charNewline ∉ v.printed := by
  cases v with
  | int n => exact newline_not_mem_int n
  | bool v => cases v <;> decide
  | varchar v =>
      intro hmem
      rcases List.mem_append.mp hmem with hmem | hmem
      · rcases List.mem_append.mp hmem with hmem | hmem
        · exact absurd hmem (by decide)
        · exact (h.2.2 _ hmem).1 rfl
      · exact absurd hmem (by decide)

theorem fileLines_flatMap {lines : List ByteString} (h : ∀ line ∈ lines, charNewline ∉ line) :
    fileLines (lines.flatMap (· ++ [charNewline])) = lines := by
  induction lines with
  | nil => rfl
  | cons line lines ih =>
      rw [List.flatMap_cons, fileLines, List.append_assoc, List.singleton_append,
        linesFrom_append (h line List.mem_cons_self), List.nil_append]
      exact congrArg (line :: ·) (ih fun l hl => h l (List.mem_cons_of_mem _ hl))

theorem tokens_printed {word : ByteString} (hword : Token.Renderable ⟨false, word⟩)
    {row : List RowValue} (hrow : ∀ v ∈ row, v.Unescaped) :
    tokens (word ++ row.flatMap RowValue.printed) = .ok (some (word :: row.map RowValue.text)) := by
  have hline : word ++ row.flatMap RowValue.printed =
      Token.line (⟨false, word⟩ :: row.map RowValue.token) := dataLine_eq_line hrow ⟨false, word⟩
  have hcontent : (row.map RowValue.token).map Token.content = row.map RowValue.text := by
    rw [List.map_map]
    exact List.map_congr_left fun v hv => (RowValue.token_of_unescaped (hrow v hv)).2.1
  have htoks : ∀ tok ∈ Token.mk false word :: row.map RowValue.token, tok.Renderable := by
    intro tok htok
    rcases List.mem_cons.mp htok with rfl | htok
    · exact hword
    · obtain ⟨v, hv, rfl⟩ := List.mem_map.mp htok
      exact (RowValue.token_of_unescaped (hrow v hv)).1
  rw [tokens, hline, Token.tokensFrom_line (List.cons_ne_nil _ _) htoks rfl
    (Token.length_le_line htoks), List.map_cons, hcontent]

end Lines

/-- The values on a table line: the table, and the types and type parameters of its columns. -/
def headerValues (systabid : Nat) : List RowValue :=
  .int systabid :: (systableColumnsOf systabid).flatMap fun col =>
    [.int col.coltypid, .int col.coltypparam]

theorem headerLine_eq (systabid : Nat) :
    headerLine systabid = ascii "table" ++ (headerValues systabid).flatMap RowValue.printed := by
  rw [headerLine, headerValues, List.flatMap_cons, List.flatMap_assoc, List.append_assoc]
  simp only [List.flatMap_cons, List.flatMap_nil, List.append_nil]

def sectionSchema (systabid : Nat) : Schema :=
  (tableSchema documentedBuiltins ((systableColumnsOf systabid).map (·.coltypid))
    ((systableColumnsOf systabid).map (·.coltypparam))).getD
      (Schema.construct [] [] [] [])

def systableSection (systabid : Nat) (rows : List (List Datum)) : InitSection :=
  { tabid := systabid, schema := sectionSchema systabid, rows }

def Content.section (c : Content) (systabid : Nat) : InitSection :=
  systableSection systabid ((c.rows systabid).map fun row => row.values.map RowValue.datum)

def Content.Printable (c : Content) : Prop :=
  ∀ k ∈ systabids, ∀ row ∈ c.rows k,
    List.Forall₂ (fun (col : SysTableColumn) v => v.Suits col.coltypid col.coltypparam)
      (systableColumnsOf k) row.values

section Sections

variable {num : Numbers} {others : BuiltinTable} {k : Nat}

theorem tableSchema_eq (builtin : BuiltinTable) (typid typparam : List Nat) :
    tableSchema builtin typid typparam = tableSchema documentedBuiltins typid typparam := by
  have hlayout : ∀ s, computeLayout builtin s = computeLayout documentedBuiltins s := fun s =>
    layoutOf_congr (fun _ _ => rfl) fun _ _ => bootstrapType_typlenfunc
  unfold tableSchema
  simp only [hlayout]

theorem sectionSchema_spec (hk : k ∈ systabids) (builtin : BuiltinTable) :
    tableSchema builtin ((systableColumnsOf k).map (·.coltypid))
        ((systableColumnsOf k).map (·.coltypparam)) = some (sectionSchema k) ∧
      (sectionSchema k).getNumFields = (systableColumnsOf k).length ∧
      (sectionSchema k).field.map (fun f => (f.typid, f.typparam)) =
        (systableColumnsOf k).map fun col => (col.coltypid, col.coltypparam) := by
  have hall : ∀ k ∈ systabids, ∃ s ∈ tableSchema documentedBuiltins
      ((systableColumnsOf k).map (·.coltypid)) ((systableColumnsOf k).map (·.coltypparam)),
        s.getNumFields = (systableColumnsOf k).length ∧
        s.field.map (fun f => (f.typid, f.typparam)) =
          (systableColumnsOf k).map fun col => (col.coltypid, col.coltypparam) := by
    decide +kernel
  obtain ⟨s, hs, hnum, hfields⟩ := hall k hk
  have hsection : sectionSchema k = s := by
    rw [sectionSchema, Option.mem_def.mp hs, Option.getD_some]
  rw [tableSchema_eq, hsection]
  exact ⟨hs, hnum, hfields⟩

theorem sectionSchema_column (hk : k ∈ systabids) {i : Nat} {col : SysTableColumn}
    (hcol : (systableColumnsOf k)[i]? = some col) :
    (sectionSchema k).getFieldTypeId i = col.coltypid ∧
      (sectionSchema k).getFieldTypeParam i = col.coltypparam := by
  have hfields := congrArg (·[i]?) (sectionSchema_spec hk documentedBuiltins).2.2
  rw [List.getElem?_map, List.getElem?_map, hcol] at hfields
  obtain ⟨f, hf, heq⟩ := Option.map_eq_some_iff.mp hfields
  obtain ⟨htypid, hparam⟩ := Prod.mk.inj heq
  rw [getFieldTypeId, getFieldTypeParam, fieldAt, List.getD_eq_getElem?_getD, hf, Option.getD_some]
  exact ⟨htypid, hparam⟩

theorem contains_natCast {w n : Nat} (h : n < 2 ^ w) : IntType.Contains ⟨false, w⟩ (n : Int) := by
  rw [IntType.contains_unsigned rfl]
  exact ⟨Int.natCast_nonneg n, by exact_mod_cast h⟩

theorem columnNumbers_printed (hnum : num.ReadsPrinted) {cols : List SysTableColumn}
    (hcols : ∀ col ∈ cols, col.coltypid < 2 ^ 32 ∧ col.coltypparam < 2 ^ 64) :
    columnNumbers num ((cols.flatMap fun col =>
      [RowValue.int col.coltypid, RowValue.int col.coltypparam]).map RowValue.text) =
        some (cols.map (·.coltypid), cols.map (·.coltypparam)) := by
  induction cols with
  | nil => rfl
  | cons col cols ih =>
      obtain ⟨htypid, hparam⟩ := hcols col List.mem_cons_self
      have hoid := contains_natCast (w := 32) htypid
      have hparam' := contains_natCast (w := 64) hparam
      refine columnNumbers_cons.mpr ⟨col.coltypid, col.coltypparam, _, _,
        hnum.ints _ (.inl rfl) _ hoid, hnum.ints _ (.inr rfl) _ hparam',
        ih fun c hc => hcols c (List.mem_cons_of_mem _ hc), rfl, rfl⟩

theorem renderable_words : Token.Renderable ⟨false, ascii "table"⟩ ∧
    Token.Renderable ⟨false, ascii "data"⟩ :=
  ⟨⟨by decide, by decide, by decide⟩, ⟨by decide, by decide, by decide⟩⟩

theorem addLine_header (hnum : num.ReadsPrinted) (hk : k ∈ systabids) (secs : List InitSection) :
    addLine num (findBuiltinFunction num others) secs (headerLine k) =
      some (systableSection k [] :: secs) := by
  have hbounds : ∀ k ∈ systabids, k < 2 ^ 32 ∧ ∀ col ∈ systableColumnsOf k,
      col.coltypid < 2 ^ 32 ∧ col.coltypparam < 2 ^ 64 := by decide +kernel
  obtain ⟨hlt, hcols⟩ := hbounds k hk
  have hheader : ∀ v ∈ headerValues k, v.Unescaped := by
    intro v hv
    rcases List.mem_cons.mp hv with rfl | hv
    · trivial
    · obtain ⟨col, -, hv⟩ := List.mem_flatMap.mp hv
      rcases List.mem_cons.mp hv with rfl | hv
      · trivial
      · rw [List.mem_singleton.mp hv]
        trivial
  have htabid := contains_natCast (w := 32) hlt
  have htable : tableLine num (findBuiltinFunction num others)
      ((headerValues k).map RowValue.text) = some (systableSection k []) := by
    rw [headerValues, List.map_cons, tableLine]
    refine Option.bind_eq_some_iff.mpr ⟨k, hnum.ints _ (.inl rfl) _ htabid, ?_⟩
    refine Option.bind_eq_some_iff.mpr ⟨_, columnNumbers_printed hnum hcols, ?_⟩
    exact Option.bind_eq_some_iff.mpr ⟨_, (sectionSchema_spec hk _).1, rfl⟩
  rw [headerLine_eq, addLine, tokens_printed renderable_words.1 hheader]
  dsimp only
  rw [if_neg (by decide), if_pos rfl, htable]
  rfl

theorem addLine_data (hnum : num.ReadsPrinted) (hk : k ∈ systabids) {row : List RowValue}
    (hrow : List.Forall₂ (fun (col : SysTableColumn) v => v.Suits col.coltypid col.coltypparam)
      (systableColumnsOf k) row) (rows : List (List Datum)) (secs : List InitSection) :
    addLine num (findBuiltinFunction num others) (systableSection k rows :: secs) (dataLine row) =
      some (systableSection k (rows ++ [row.map RowValue.datum]) :: secs) := by
  have hparams : ∀ k ∈ systabids, ∀ col ∈ systableColumnsOf k, col.coltypparam < 2 ^ 32 := by
    decide +kernel
  have hsuits : ∀ (j : Nat) (v : RowValue), row[j]? = some v → ∃ col, (systableColumnsOf k)[j]? = some col ∧
      v.Suits col.coltypid col.coltypparam := by
    intro j v hv
    obtain ⟨hlt, rfl⟩ := List.getElem?_eq_some_iff.mp hv
    have hlt' : j < (systableColumnsOf k).length := by rw [hrow.length_eq]; exact hlt
    exact ⟨_, List.getElem?_eq_getElem hlt', (List.forall₂_iff_get.mp hrow).2 j hlt' hlt⟩
  have hunescaped : ∀ v ∈ row, v.Unescaped := by
    intro v hv
    obtain ⟨j, hj⟩ := List.getElem?_of_mem hv
    obtain ⟨col, -, hsuit⟩ := hsuits j v hj
    exact hsuit.unescaped
  have hvalues : inputValues (findBuiltinFunction num others) (sectionSchema k) 0
      (row.map RowValue.text) = some (row.map RowValue.datum) := by
    refine inputValues_of_suits hnum fun j v hv => ?_
    obtain ⟨col, hcol, hsuit⟩ := hsuits j v hv
    rw [Nat.zero_add, (sectionSchema_column hk hcol).1, (sectionSchema_column hk hcol).2]
    exact ⟨hsuit, hparams k hk col (List.mem_of_getElem? hcol)⟩
  have hdata : dataRow (findBuiltinFunction num others) (sectionSchema k)
      (row.map RowValue.text) = some (row.map RowValue.datum) := by
    refine Option.bind_eq_some_iff.mpr ⟨_, hvalues, if_pos ?_⟩
    rw [List.length_map, (sectionSchema_spec hk documentedBuiltins).2.1, hrow.length_eq]
  rw [dataLine, addLine, tokens_printed renderable_words.2 hunescaped]
  dsimp only
  rw [if_pos rfl, systableSection, hdata]
  rfl

theorem foldlM_section (hnum : num.ReadsPrinted) {c : Content} (hc : c.Printable)
    (hk : k ∈ systabids) (secs : List InitSection) :
    (headerLine k :: (c.rows k).map fun row => dataLine row.values).foldlM
        (addLine num (findBuiltinFunction num others)) secs = some (c.section k :: secs) := by
  have hrows : ∀ (rows : List SysTableStruct) (done : List (List Datum)),
      (∀ row ∈ rows, row ∈ c.rows k) →
      (rows.map fun row => dataLine row.values).foldlM (addLine num (findBuiltinFunction num others))
          (systableSection k done :: secs) =
        some (systableSection k (done ++ rows.map fun row => row.values.map RowValue.datum) ::
          secs) := by
    intro rows
    induction rows with
    | nil =>
        intro done _
        rw [List.map_nil, List.map_nil, List.append_nil]
        rfl
    | cons row rows ih =>
        intro done hmem
        have hrow := hc k hk row (hmem row List.mem_cons_self)
        rw [List.map_cons, List.foldlM_cons, addLine_data hnum hk hrow, Option.bind_eq_bind,
          Option.bind_some, ih _ fun r hr => hmem r (List.mem_cons_of_mem _ hr), List.append_assoc]
        rfl
  rw [List.foldlM_cons, addLine_header hnum hk, Option.bind_eq_bind, Option.bind_some,
    hrows _ [] fun _ hrow => hrow]
  rfl

theorem initSections_initData (hnum : num.ReadsPrinted) {c : Content} (hc : c.Printable) :
    initSections num (findBuiltinFunction num others) c.initData =
      some (systabids.map c.section).reverse := by
  have hheader : ∀ k ∈ systabids, charNewline ∉ headerLine k := by
    intro k _ hmem
    rw [headerLine_eq] at hmem
    rcases List.mem_append.mp hmem with hmem | hmem
    · exact absurd hmem (by decide)
    · obtain ⟨v, hv, hmem⟩ := List.mem_flatMap.mp hmem
      rcases List.mem_cons.mp hv with rfl | hv
      · exact newline_not_mem_int _ hmem
      · obtain ⟨col, -, hv⟩ := List.mem_flatMap.mp hv
        rcases List.mem_cons.mp hv with rfl | hv
        · exact newline_not_mem_int _ hmem
        · rw [List.mem_singleton.mp hv] at hmem
          exact newline_not_mem_int _ hmem
  have hlines : fileLines c.initData =
      systabids.flatMap fun k => headerLine k :: (c.rows k).map fun row => dataLine row.values := by
    rw [Content.initData, ← List.flatMap_assoc]
    refine fileLines_flatMap fun line hline => ?_
    obtain ⟨k, hk, hline⟩ := List.mem_flatMap.mp hline
    rcases List.mem_cons.mp hline with rfl | hline
    · exact hheader k hk
    · obtain ⟨row, hrow, rfl⟩ := List.mem_map.mp hline
      intro hmem
      rcases List.mem_append.mp hmem with hmem | hmem
      · exact absurd hmem (by decide)
      · obtain ⟨v, hv, hmem⟩ := List.mem_flatMap.mp hmem
        obtain ⟨i, hi, rfl⟩ := List.mem_iff_getElem.mp hv
        have hsuits := hc k hk row hrow
        have hsuit := (List.forall₂_iff_get.mp hsuits).2 i (by rw [hsuits.length_eq]; exact hi) hi
        exact hsuit.newline_not_mem hmem
  have hfold : ∀ (ks : List Nat) (secs : List InitSection), ks ⊆ systabids →
      (ks.flatMap fun k => headerLine k :: (c.rows k).map fun row => dataLine row.values).foldlM
          (addLine num (findBuiltinFunction num others)) secs =
        some ((ks.map c.section).reverse ++ secs) := by
    intro ks
    induction ks with
    | nil => exact fun secs _ => rfl
    | cons k ks ih =>
        intro secs hks
        rw [List.flatMap_cons, List.foldlM_append,
          foldlM_section hnum hc (hks List.mem_cons_self), Option.bind_eq_bind, Option.bind_some,
          ih _ (List.subset_of_cons_subset hks), List.map_cons, List.reverse_cons,
          List.append_assoc]
        rfl
  rw [initSections, hlines, hfold systabids [] (List.Subset.refl _), List.append_nil]

end Sections

def readValue (typid : Nat) (d : Datum) : RowValue :=
  if typid = typBool then .bool d.getBool
  else if typid = typVarchar then .varchar d.getVarlenBytes
  else if typid = typInt2 then .int (d.getInt 16)
  else if typid = typUint1 then .int (d.getUInt 8)
  else if typid = typUint8 then .int (d.getUInt 64)
  else .int (d.getUInt 32)

section ReadBack

variable {k i : Nat} {col : SysTableColumn} {data : List Datum}

theorem systable_column (hk : k ∈ systabids) (hcol : (systableColumnsOf k)[i]? = some col) :
    (∀ n, (col.coltypid, n) ∈ [(typBool, 1), (typInt2, 2), (typUint1, 1), (typOid, 4), (typUint4, 4),
        (typUint8, 8)] → ByValue (systableSchema k) i n) ∧
      (col.coltypid = typVarchar → col.coltypparam ≤ 32767 ∧
        ∃ f ∈ (systableSchema k).fields[i]?, f.typlen = -1 ∧ f.typbyref = true) := by
  have hall : ∀ k ∈ systabids, ∀ p ∈ (systableColumnsOf k).zipIdx,
      (∀ q ∈ [(typBool, 1), (typInt2, 2), (typUint1, 1), (typOid, 4), (typUint4, 4),
        (typUint8, 8)], q.1 = p.1.coltypid → ByValue (systableSchema k) p.2 q.2) ∧
      (p.1.coltypid = typVarchar → p.1.coltypparam ≤ 32767 ∧
        ∃ f ∈ (systableSchema k).fields[p.2]?, f.typlen = -1 ∧ f.typbyref = true) := by
    decide +kernel
  obtain ⟨hval, hvar⟩ := hall k hk (col, i) (List.mem_zipIdx_iff_getElem?.mpr hcol)
  exact ⟨fun n hn => hval _ hn rfl, hvar⟩

theorem readValue_decoded (hk : k ∈ systabids) (hcol : (systableColumnsOf k)[i]? = some col)
    {v : RowValue} (hv : v.Suits col.coltypid col.coltypparam) (hd : data[i]? = some v.datum) :
    readValue col.coltypid (fieldOf ((systableSchema k).decoded data) i) = v := by
  obtain ⟨hval, hvar⟩ := systable_column hk hcol
  cases v with
  | int n =>
      obtain ⟨t, ht, htyp, hn⟩ := hv
      rw [← htyp] at hval ⊢
      simp only [columnIntTypes, List.mem_cons, List.not_mem_nil, or_false] at ht
      have huint : ∀ {w : Nat}, IntType.Contains ⟨false, w⟩ n → ∃ m : Nat, n = m ∧ m < 2 ^ w := by
        intro w hw
        rw [IntType.contains_unsigned rfl] at hw
        obtain ⟨m, rfl⟩ := Int.eq_ofNat_of_zero_le hw.1
        exact ⟨m, rfl, by exact_mod_cast hw.2⟩
      rcases ht with rfl | rfl | rfl | rfl | rfl
      · obtain ⟨m, rfl, hm⟩ := huint hn
        have hread := (hval 4 (by decide)).getUInt (n := 4) (by decide) hd
        rw [Nat.mod_eq_of_lt hm] at hread
        exact congrArg (fun x : Nat => RowValue.int x) hread
      · have hread := (hval 2 (by decide)).getInt hd
        rw [IntType.contains_signed rfl] at hn
        rw [toFieldOffset_of_mem hn.1 (Int.le_of_lt_add_one hn.2)] at hread
        exact congrArg RowValue.int hread
      · obtain ⟨m, rfl, hm⟩ := huint hn
        have hread := (hval 1 (by decide)).getUInt (n := 1) (by decide) hd
        rw [Nat.mod_eq_of_lt hm] at hread
        exact congrArg (fun x : Nat => RowValue.int x) hread
      · obtain ⟨m, rfl, hm⟩ := huint hn
        have hread := (hval 4 (by decide)).getUInt (n := 4) (by decide) hd
        rw [Nat.mod_eq_of_lt hm] at hread
        exact congrArg (fun x : Nat => RowValue.int x) hread
      · obtain ⟨m, rfl, hm⟩ := huint hn
        have hread := (hval 8 (by decide)).getUInt (n := 8) (by decide) hd
        rw [Nat.mod_eq_of_lt hm] at hread
        exact congrArg (fun x : Nat => RowValue.int x) hread
  | bool v =>
      have htyp : col.coltypid = typBool := hv
      rw [htyp] at hval ⊢
      exact congrArg RowValue.bool ((hval 1 (by decide)).getBool hd)
  | varchar v =>
      obtain ⟨htyp, hle, -⟩ := hv
      obtain ⟨hparam, f, hf, hlen, hbyref⟩ := hvar htyp
      have hbytes : (Datum.ofBytes v).getVarlenBytes = v := getVarlenBytes_ofBytes (by omega)
      have hsize : toFieldOffset (Datum.ofBytes v).getVarlenSize = v.length := by
        rw [Datum.getVarlenSize, hbytes, toFieldOffset_of_mem (by omega) (by omega)]
      have hread : fieldOf ((systableSchema k).decoded data) i = .fromVarlenBytes v := by
        rw [fieldOf, List.getD_eq_getElem?_getD, decoded_eq, List.getElem?_zipWith,
          Option.mem_def.mp hf, hd]
        change readStored f (.ofBytes v) = _
        rw [readStored_varlen hlen hbyref rfl, hbytes, hsize, Int.toNat_natCast, List.take_length]
      rw [htyp, hread]
      exact congrArg RowValue.varchar (Datum.getVarlenBytes_fromVarlenBytes (by omega))

theorem values_ofData (hk : k ∈ systabids) (data : List Datum) :
    (SysTableStruct.ofData k data).values = (systableColumnsOf k).zipIdx.map fun p =>
      readValue p.1.coltypid (fieldOf data p.2) := by
  rcases InsertKind.systabids_cases hk with rfl | rfl | rfl | rfl | rfl | rfl | rfl | rfl
  all_goals rfl

theorem values_injective : Function.Injective SysTableStruct.values := by
  rintro (⟨⟨⟩⟩ | ⟨⟨⟩⟩ | ⟨⟨⟩⟩ | ⟨⟨⟩⟩ | ⟨⟨⟩⟩ | ⟨⟨⟩⟩ | ⟨⟨⟩⟩ | ⟨⟨⟩⟩)
    (⟨⟨⟩⟩ | ⟨⟨⟩⟩ | ⟨⟨⟩⟩ | ⟨⟨⟩⟩ | ⟨⟨⟩⟩ | ⟨⟨⟩⟩ | ⟨⟨⟩⟩ | ⟨⟨⟩⟩) h
  all_goals simp_all [SysTableStruct.values]

theorem ofData_values (hk : k ∈ systabids) {row : SysTableStruct}
    (hrow : List.Forall₂ (fun (col : SysTableColumn) v => v.Suits col.coltypid col.coltypparam)
      (systableColumnsOf k) row.values) :
    SysTableStruct.ofData k ((systableSchema k).decoded (row.values.map RowValue.datum)) = row := by
  refine values_injective ?_
  rw [values_ofData hk]
  refine List.ext_getElem ?_ fun i hi hi' => ?_
  · rw [List.length_map, List.length_zipIdx, hrow.length_eq]
  · have hlt : i < (systableColumnsOf k).length := by rwa [hrow.length_eq]
    have hsuit := (List.forall₂_iff_get.mp hrow).2 i hlt hi'
    rw [List.getElem_map, List.getElem_zipIdx, Nat.zero_add]
    refine readValue_decoded hk (List.getElem?_eq_getElem hlt) hsuit ?_
    rw [List.getElem?_map, List.getElem?_eq_getElem hi']
    rfl

end ReadBack

end Taco
