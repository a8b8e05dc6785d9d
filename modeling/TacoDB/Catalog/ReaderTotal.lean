import TacoDB.Catalog.InitDataFileReader
import TacoDB.Catalog.NullCheck

/-!
# Malformed init files

What `next` does on any file. It has an answer for most malformed lines, but not for a data
line without a table line before it, a table line without columns or with an unknown type,
a table whose rows have no layout, a quote that stays open, and a row that
`WritePayloadToBuffer` cannot write. `LineReadable` says that the next line is none of
these. When every line of a run is readable, every call returns or raises the error of an
input function; that a reader stays at the end or in its error is true of every run.
-/

namespace Taco

open Schema

namespace InitDataFileReader

section Bootstrap

/-- The bootstrap types are rows of `Type` without a length function, and the rest of their
row is as `ComputeLayout` asserts. -/
theorem bootstrapTypes_rows : ∀ typ ∈ bootstrapTypes,
    typ ∈ typeRows ∧ typ.typlenfunc = invalidOid ∧
      (typ.typisvarlen = true → typ.typbyref = true) ∧
      (typ.typisvarlen = false → typ.typlen ≤ 8 ∧
        (BitVec.ofInt 32 (typ.typlen - 1) &&& BitVec.ofInt 32 typ.typlen) = 0) ∧
      typ.typinfunc ∈ [740, 770, 620, 530, 710, 680, 860] := by
  decide +kernel

theorem findBootstrapType_some {oid : Nat} {typ : SysTableType}
    (h : findBootstrapType oid = some typ) : typ ∈ bootstrapTypes ∧ typ.typid = oid := by
  refine ⟨List.mem_of_find?_eq_some h, ?_⟩
  simpa using List.find?_some h

def bootstrapType (oid : Nat) : SysTableType :=
  (findBootstrapType oid).getD (.byValue 0 "" 0 0 0)

/-- The lookup `ComputeLayout` uses. -/
def lookup (oid : Nat) : Eff Failure Unit (Option SysTableType) := pure (findBootstrapType oid)

theorem findBootstrapType_of_found {oid : Nat} {typ : SysTableType} (h : Found lookup oid typ) :
    findBootstrapType oid = some typ := by
  obtain ⟨st, st', h⟩ := h
  exact Except.ok.inj (congrArg Prod.fst h)

theorem eq_of_found {oid : Nat} {typ : SysTableType} (h : Found lookup oid typ) :
    typ = bootstrapType oid := by
  rw [bootstrapType, findBootstrapType_of_found h, Option.getD_some]

variable {num : Numbers} {others : BuiltinTable}

theorem shaped_of_found (hothers : others invalidOid = none) (oid : Nat) (typ : SysTableType)
    (h : Found lookup oid typ) : typ.Shaped (findBuiltinFunction num others) :=
  typeRows_shaped num hothers
    (bootstrapTypes_rows typ (findBootstrapType_some (findBootstrapType_of_found h)).1).1

theorem resolveTyplen_bootstrap {builtin : BuiltinTable} {typ : SysTableType}
    (h : typ ∈ bootstrapTypes) (typparam : Nat) :
    ∃ typlen, resolveTyplen builtin typ typparam = .ok typlen := by
  obtain ⟨-, hfunc, hbyref, hlen, -⟩ := bootstrapTypes_rows typ h
  unfold resolveTyplen
  cases hvar : typ.typisvarlen with
  | true => exact ⟨-1, by rw [if_pos rfl, if_pos (hbyref hvar)]⟩
  | false =>
      refine ⟨typ.typlen, ?_⟩
      rw [if_neg Bool.false_ne_true, if_neg (not_not_intro hfunc), if_pos (hlen hvar)]

def RaisesErrors (f : FunctionInfo) : Prop :=
  ∀ text typparam e, f { args := [Datum.fromVarlenBytes text], typparam } = .error e →
    ∃ msg, e = .tdbError .kError msg

theorem strictUnary_raises {g : Datum → Nat → Except Failure Datum}
    (hg : ∀ d typparam e, g d typparam = .error e → ∃ msg, e = .tdbError .kError msg) :
    RaisesErrors (strictUnary g) := by
  intro text typparam e h
  exact hg _ _ e h

theorem intIn_raises (num : Numbers) (t : IntType) (name : String) :
    RaisesErrors (intIn num t name) := by
  refine strictUnary_raises fun d typparam e h => ?_
  cases hparse : num.simpleAtoiWrapper t d.getVarlenBytes with
  | none =>
      rw [hparse] at h
      exact ⟨_, (Except.error.inj h).symm⟩
  | some x =>
      rw [hparse] at h
      cases h

theorem boolIn_raises (num : Numbers) : RaisesErrors (boolIn num) := by
  refine strictUnary_raises fun d typparam e h => ?_
  cases hparse : num.simpleAtob d.getVarlenBytes with
  | none =>
      rw [hparse] at h
      exact ⟨_, (Except.error.inj h).symm⟩
  | some x =>
      rw [hparse] at h
      cases h

theorem varcharIn_raises : RaisesErrors varcharIn := by
  refine strictUnary_raises fun d typparam e h => ?_
  dsimp only at h
  split at h
  · exact ⟨_, (Except.error.inj h).symm⟩
  · cases h

theorem infunc_bootstrap (num : Numbers) (others : BuiltinTable) {typ : SysTableType}
    (h : typ ∈ bootstrapTypes) :
    ∃ f, findBuiltinFunction num others typ.typinfunc = some f ∧ RaisesErrors f := by
  obtain ⟨-, -, -, -, hfunc⟩ := bootstrapTypes_rows typ h
  simp only [List.mem_cons, List.not_mem_nil, or_false] at hfunc
  rcases hfunc with hf | hf | hf | hf | hf | hf | hf <;> rw [hf]
  · exact ⟨_, rfl, intIn_raises num _ _⟩
  · exact ⟨_, rfl, boolIn_raises num⟩
  · exact ⟨_, rfl, intIn_raises num _ _⟩
  · exact ⟨_, rfl, intIn_raises num _ _⟩
  · exact ⟨_, rfl, intIn_raises num _ _⟩
  · exact ⟨_, rfl, intIn_raises num _ _⟩
  · exact ⟨_, rfl, varcharIn_raises⟩

end Bootstrap

section Outcomes

variable (num : Numbers) (builtin : BuiltinTable)

/-- An error that the input function of a type raises on a token. No bootstrap type has a
length function. -/
def RaisedByInput (e : Failure) : Prop :=
  (∃ msg, e = .tdbError .kError msg) ∧ ∃ typ ∈ bootstrapTypes, ∃ text typparam,
    functionCall (builtin typ.typinfunc) [Datum.fromVarlenBytes text] typparam = .error e

def Allowed : Except Failure InitLineType → Prop
  | .ok _ => True
  | .error e => RaisedByInput builtin e

def afterCalls (n : Nat) (r : InitDataFileReader) : InitDataFileReader :=
  (fun r => (next num builtin r).2)^[n] r

def outcome (n : Nat) (r : InitDataFileReader) : Except Failure InitLineType :=
  (next num builtin (afterCalls num builtin n r)).1

/-- Every call ends as it may, and the end and the error are final. -/
def ReaderTotal (r : InitDataFileReader) : Prop :=
  (∀ n, Allowed builtin (outcome num builtin n r)) ∧
    ∀ n m state, n ≤ m → (state = .eof ∨ state = .error) →
      outcome num builtin n r = .ok state → outcome num builtin m r = .ok state

end Outcomes

section Condition

variable (num : Numbers) (builtin : BuiltinTable)

/-- The loop over a data line that begins at `startPos` comes to `pos` with the values
`data`: as many tokens have been read and converted. -/
inductive ValuesRead (s : Schema) (line : ByteString) (startPos : Nat) : Nat → List Datum → Prop
  | start : ValuesRead s line startPos startPos []
  | value {pos pos' : Nat} {data : List Datum} {token : ByteString} {typ : SysTableType}
      {d : Datum} (before : ValuesRead s line startPos pos data)
      (more : (data.length : Int) ≠ s.getNumFields)
      (token_eq : findNextToken line pos = .ok (some (token, pos')))
      (type_eq : findBootstrapType (s.getFieldTypeId data.length) = some typ)
      (value_eq : functionCall (builtin typ.typinfunc) [Datum.fromVarlenBytes token]
        (s.getFieldTypeParam data.length) = .ok d)
      (nonnull : d.isnull = false) : ValuesRead s line startPos pos' (data ++ [d])

/-- The data line can be read: there is a table, no quote the loop comes to stays open, and
a row of as many values as the table has columns can be written or is refused. -/
structure DataReadable (r : InitDataFileReader) (line : ByteString) (startPos : Nat) : Prop where
  table : r.schema ≠ none
  closed : ∀ s pos data, r.schema = some s → ValuesRead builtin s line startPos pos data →
    (data.length : Int) ≠ s.getNumFields → ¬ OpenQuote line pos
  written : ∀ s data, r.schema = some s →
    ValuesRead builtin s line startPos line.length data →
      (data.length : Int) = s.getNumFields → WriteDefined s data 0

/-- The loop over the columns of a table line that begins at `startPos` comes to `pos` with
these types and type parameters. -/
inductive ColumnsRead (line : ByteString) (startPos : Nat) :
    Nat → List Nat → List Nat → Prop
  | start : ColumnsRead line startPos startPos [] []
  | column {pos pos₁ pos₂ oid param : Nat} {typid typparam : List Nat}
      (before : ColumnsRead line startPos pos typid typparam)
      (typid_eq : readNumber num ⟨false, 32⟩ line pos = .ok (some (oid, pos₁)))
      (typparam_eq : readNumber num ⟨false, 64⟩ line pos₁ = .ok (some (param, pos₂))) :
      ColumnsRead line startPos pos₂ (typid ++ [oid]) (typparam ++ [param])

/-- Every boundary of the layout passes its overflow check. The check of the end array does
not notice 16384 and more variable-length fields. -/
def LayoutFits (l : List FieldInfo) : Prop :=
  Bounded l ∨ 16384 ≤ l.countP FieldInfo.isVarlen ∧ EndArrayBounded l

/-- The columns of a table line make a table: there are some and not too many, their types
are known, and a row has a layout. -/
structure ColumnsFit (typid typparam : List Nat) : Prop where
  nonempty : typid ≠ []
  number : 0 ≤ toFieldOffset typid.length
  known : ∀ oid ∈ typid, (findBootstrapType oid).isSome = true
  layout : LayoutFits
    ((Schema.construct typid typparam (List.replicate typid.length false) []).fields.map
      (resolveField bootstrapType builtin))

/-- The table line can be read: no quote stays open, and its columns make a table. -/
structure TableReadable (line : ByteString) (startPos : Nat) : Prop where
  closed : ¬ OpenQuote line startPos
  typid_closed : ∀ tabid start pos typid typparam,
    readNumber num ⟨false, 32⟩ line startPos = .ok (some (tabid, start)) →
      ColumnsRead num line start pos typid typparam → ¬ OpenQuote line pos
  typparam_closed : ∀ tabid start pos typid typparam oid pos',
    readNumber num ⟨false, 32⟩ line startPos = .ok (some (tabid, start)) →
      ColumnsRead num line start pos typid typparam →
        readNumber num ⟨false, 32⟩ line pos = .ok (some (oid, pos')) → ¬ OpenQuote line pos'
  columns : ∀ tabid start typid typparam,
    readNumber num ⟨false, 32⟩ line startPos = .ok (some (tabid, start)) →
      ColumnsRead num line start line.length typid typparam → ColumnsFit builtin typid typparam

def LineReadable (r : InitDataFileReader) : Prop :=
  r.lastState ≠ .eof → r.lastState ≠ .error → ∀ line, r.input.getline.1 = line →
    ¬ OpenQuote line 0 ∧
      ∀ word pos, findNextToken line 0 = .ok (some (word, pos)) →
        (word = ascii "data" → DataReadable builtin r line pos) ∧
          (word = ascii "table" → TableReadable num builtin line pos)

end Condition

section Layout

variable {num : Numbers} {others : BuiltinTable} {typid typparam : List Nat}

theorem typid_of_mem_initFields {nullable : List Bool} {f : FieldInfo}
    (h : f ∈ initFields typid typparam nullable) : f.typid ∈ typid := by
  fun_induction initFields typid typparam nullable with
  | case1 oid typid p typparam b nullable ih =>
      rcases List.mem_cons.mp h with rfl | h
      · exact List.mem_cons_self
      · exact List.mem_cons_of_mem _ (ih h)
  | case2 => cases h

theorem plainEnd_nonneg {l : List FieldInfo}
    (h : ∀ f ∈ l, f.isPlain = true → IsAlignment f.typalign ∧ 0 ≤ f.typlen) : 0 ≤ Schema.plainEnd l := by
  have hfold : ∀ off : Int, 0 ≤ off → 0 ≤ l.foldl plainStep off := by
    induction l with
    | nil => exact fun off hoff => hoff
    | cons f l ih =>
        intro off hoff
        refine ih (fun g hg => h g (List.mem_cons_of_mem f hg)) _ ?_
        unfold plainStep
        split
        · rename_i hplain
          obtain ⟨halign, hlen⟩ := h f List.mem_cons_self hplain
          have := Alignment.le_alignUp halign.pos off
          omega
        · exact hoff
  exact hfold 0 (Int.le_refl 0)

theorem not_bounded_of_many {l : List FieldInfo} (hnonneg : 0 ≤ Schema.plainEnd l)
    (hmany : 16384 ≤ l.countP FieldInfo.isVarlen) : ¬ Bounded l := by
  have hmixed : ¬ ∀ f ∈ l, f.isPlain = true := by
    intro hplain
    have hzero : l.countP FieldInfo.isVarlen = 0 := by
      rw [List.countP_eq_zero]
      intro f hf
      rw [FieldInfo.isVarlen_of_isPlain (hplain f hf)]
      exact Bool.false_ne_true
    omega
  rw [Bounded, if_neg hmixed]
  rintro ⟨-, hfit⟩
  have hge := Alignment.le_alignUp (a := 2) (by decide) (Schema.plainEnd l + bitmapSize l)
  unfold exactPayloadBegin exactEndArrayBegin at hfit
  omega

/-- A layout that agrees with exact arithmetic as far as it can is computed when it
fits. -/
theorem computed_of_layoutFits {l : List FieldInfo} {s : Schema} (hnonneg : 0 ≤ Schema.plainEnd l)
    (hexact : LayoutExact l s ↔ l.countP FieldInfo.isVarlen < 16384 ∨ ¬ EndArrayBounded l)
    (hfits : LayoutFits l) : s.isLayoutComputed = true := by
  rcases Nat.lt_or_ge (l.countP FieldInfo.isVarlen) 16384 with hfew | hmany
  · rcases hfits with hfits | ⟨hmany, -⟩
    · exact (hexact.mpr (Or.inl hfew)).1.mpr hfits
    · omega
  · have hnot := not_bounded_of_many hnonneg hmany
    obtain ⟨-, hend⟩ := hfits.resolve_left hnot
    by_contra hcomp
    have hlayout : LayoutExact l s := ⟨iff_of_false hcomp hnot, fun h => absurd h hcomp⟩
    rcases hexact.mp hlayout with hfew | hnend
    · omega
    · exact hnend hend

theorem computeLayout_of_fit (hothers : others invalidOid = none)
    (hfit : ColumnsFit (findBuiltinFunction num others) typid typparam)
    (hlen : typparam.length = typid.length) :
    ∃ s₀ s l, Schema.create typid typparam (List.replicate typid.length false) = some s₀ ∧
      computeLayout (findBuiltinFunction num others) s₀ = .ok s ∧ s.isLayoutComputed = true ∧
      Arranged s l ∧ Sectioned s l ∧ ∀ f ∈ l, f.typid ∈ typid := by
  set builtin := findBuiltinFunction num others with hbuiltin
  set nullable := List.replicate typid.length false with hnullable
  have hcreate : Schema.create typid typparam nullable =
      some (Schema.construct typid typparam nullable []) := by
    rw [Schema.create, if_neg]
    rintro (h | h | h | ⟨h, -⟩)
    · exact hfit.nonempty h
    · exact h hlen.symm
    · exact h (List.length_replicate).symm
    · exact h rfl
  set s₀ := Schema.construct typid typparam nullable [] with hs₀
  have hmem : ∀ f ∈ s₀.fields, f.typid ∈ typid := fun f hf =>
    typid_of_mem_initFields (mem_initFields_of_create hcreate hf)
  have htype : ∀ f ∈ s₀.fields, ∃ typ, findBootstrapType f.typid = some typ := fun f hf =>
    Option.isSome_iff_exists.mp (hfit.known _ (hmem f hf))
  have hnonneg : 0 ≤ s₀.getNumFields := by
    rw [getNumFields, length_field_of_create hcreate]
    exact hfit.number
  have hres : Resolvable lookup builtin bootstrapType s₀.fields := by
    constructor
    · intro f hf st
      obtain ⟨typ, htyp⟩ := htype f hf
      exact ⟨st, by rw [lookup, Eff.pure_apply, bootstrapType, htyp, Option.getD_some]⟩
    · intro f hf
      obtain ⟨typ, htyp⟩ := htype f hf
      rw [bootstrapType, htyp, Option.getD_some]
      exact resolveTyplen_bootstrap (findBootstrapType_some htyp).1 _
  have hshape : ∀ oid typ, Found lookup oid typ → typ.Shaped builtin := shaped_of_found hothers
  obtain ⟨s, st', hrun, hexact⟩ := computeLayoutImpl_outcome hshape (fun _ _ => eq_of_found)
    (create_not_computed hcreate) hnonneg hres rfl ()
  have hend : 0 ≤ Schema.plainEnd (s₀.fields.map (resolveField bootstrapType builtin)) := by
    refine plainEnd_nonneg fun g hg hplain => ?_
    obtain ⟨f, hf, rfl⟩ := List.mem_map.mp hg
    obtain ⟨st, hfound⟩ := hres.found f hf ()
    have htyp := hshape _ _ ⟨(), st, hfound⟩
    obtain ⟨typlen, htyplen⟩ := hres.length f hf
    have hfield : resolveField bootstrapType builtin f =
        withType f (bootstrapType f.typid) typlen := by
      rw [resolveField, htyplen]
    rw [hfield] at hplain ⊢
    have hvar := ((isPlain_withType (typlen_eq_neg_one_iff htyp htyplen)).mp hplain).1
    refine ⟨?_, (resolveTyplen_shaped htyp hvar htyplen).1⟩
    have halign : (withType f (bootstrapType f.typid) typlen).typalign =
        (bootstrapType f.typid).typalign := narrow_align htyp.align
    rw [halign]
    exact htyp.align
  have hcomp := computed_of_layoutFits hend hexact hfit.layout
  obtain ⟨l, ha, -, hall, -, -⟩ := arranged_of_computeLayoutImpl (lengthsMarked_of_shaped hshape)
    (create_not_computed hcreate) hrun hcomp
  have hs := sectioned_of_computeLayoutImpl hshape (create_not_computed hcreate) hrun hcomp
  refine ⟨s₀, s, l, hcreate, congrArg Prod.fst hrun, hcomp, ha, by rwa [← ha.fields_eq], ?_⟩
  intro f hf
  obtain ⟨i, hi, rfl⟩ := List.mem_iff_getElem.mp hf
  have hi' : i < s₀.fields.length := by rw [hall.length_eq]; exact hi
  have htypid := (hall.get hi' hi).typid
  rw [List.get_eq_getElem, List.get_eq_getElem] at htypid
  rw [htypid]
  exact hmem _ (List.getElem_mem hi')

end Layout

section Ready

variable (builtin : BuiltinTable)

/-- A schema of which rows can be read: its layout is computed, and the input functions of
its columns are entered. -/
structure SchemaReady (r : InitDataFileReader) (s : Schema) : Prop where
  layout : ∃ l, Arranged s l ∧ Sectioned s l
  entered : ∀ f ∈ s.fields, (r.typInfuncs f.typid).isSome = true

/-- The members of a reader none of whose calls went wrong. -/
structure Ready (r : InitDataFileReader) : Prop where
  infuncs : ∀ oid finfo, r.typInfuncs oid = some finfo →
    ∃ typ, findBootstrapType oid = some typ ∧ finfo = builtin typ.typinfunc
  schema : ∀ s, r.schema = some s → SchemaReady r s

theorem ready_construct (input : FileStream) (lineno tabid : Nat) :
    Ready builtin (construct input lineno tabid) :=
  ⟨nofun, nofun⟩

variable {builtin} {r : InitDataFileReader}

theorem Ready.congr (h : Ready builtin r) {r' : InitDataFileReader}
    (hschema : r'.schema = r.schema) (hfuncs : r'.typInfuncs = r.typInfuncs) :
    Ready builtin r' := by
  constructor
  · rw [hfuncs]
    exact h.infuncs
  · intro s hs
    rw [hschema] at hs
    obtain ⟨hlayout, hentered⟩ := h.schema s hs
    exact ⟨hlayout, by rw [hfuncs]; exact hentered⟩

end Ready

section Values

variable {num : Numbers} {others : BuiltinTable} {r : InitDataFileReader} {s : Schema}
  {line : ByteString} {startPos : Nat}

theorem ValuesRead.nonnull {builtin : BuiltinTable} {pos : Nat} {data : List Datum}
    (h : ValuesRead builtin s line startPos pos data) : ∀ d ∈ data, d.isnull = false := by
  induction h with
  | start => exact fun d hd => nomatch hd
  | value before more token_eq type_eq value_eq nonnull ih =>
      intro d hd
      rcases List.mem_append.mp hd with hd | hd
      · exact ih d hd
      · rw [List.mem_singleton.mp hd]
        exact nonnull

/-- A value is converted by the input function of its column, which is entered. -/
theorem readValue_ready (hready : Ready (findBuiltinFunction num others) r)
    (hs : r.schema = some s) {i : Nat} (hi : i < s.getNumFields.toNat) (token : ByteString) :
    ∃ typ, findBootstrapType (s.getFieldTypeId i) = some typ ∧
      readValue s i token r = (functionCall (findBuiltinFunction num others typ.typinfunc)
        [Datum.fromVarlenBytes token] (s.getFieldTypeParam i), r) := by
  obtain ⟨⟨l, ha, -⟩, hentered⟩ := hready.schema s hs
  have hlt : i < s.fields.length := by rw [length_fields ha.numFields_nonneg]; exact hi
  have hid : s.getFieldTypeId i = s.fields[i].typid := by
    have hget : s.field[i]? = some s.fields[i] := by
      rw [← List.getElem?_eq_getElem hlt, fields, List.getElem?_take_of_lt hi]
    rw [getFieldTypeId, fieldAt, List.getD_eq_getElem?_getD, hget, Option.getD_some]
  obtain ⟨finfo, hfinfo⟩ :=
    Option.isSome_iff_exists.mp (hentered _ (List.getElem_mem hlt))
  rw [← hid] at hfinfo
  obtain ⟨typ, htyp, rfl⟩ := hready.infuncs _ _ hfinfo
  obtain ⟨f, hf, -⟩ := infunc_bootstrap num others (findBootstrapType_some htyp).1
  refine ⟨typ, htyp, ?_⟩
  have hfunc : infunc (s.getFieldTypeId i) r =
      (.ok (findBuiltinFunction num others typ.typinfunc), r) := by
    rw [infunc, Eff.bind_of_ok (Eff.getState_apply r), hfinfo]
    rfl
  rw [readValue, Eff.bind_of_ok hfunc, hf]
  rfl

theorem raisedByInput_of_call {typ : SysTableType} (htyp : typ ∈ bootstrapTypes)
    {token : ByteString} {typparam : Nat} {e : Failure}
    (h : functionCall (findBuiltinFunction num others typ.typinfunc)
      [Datum.fromVarlenBytes token] typparam = .error e) :
    RaisedByInput (findBuiltinFunction num others) e := by
  obtain ⟨f, hf, hraises⟩ := infunc_bootstrap num others htyp
  refine ⟨?_, typ, htyp, token, typparam, h⟩
  rw [hf] at h
  exact hraises token typparam e h

def ValuesOutcome (builtin : BuiltinTable) (s : Schema) (line : ByteString) (startPos : Nat) :
    Except Failure (Option (List Datum)) → Prop
  | .error e => RaisedByInput builtin e
  | .ok none => True
  | .ok (some data) => ValuesRead builtin s line startPos line.length data

theorem readValues_outcome (hready : Ready (findBuiltinFunction num others) r)
    (hs : r.schema = some s)
    (hclosed : ∀ pos data, ValuesRead (findBuiltinFunction num others) s line startPos pos data →
      (data.length : Int) ≠ s.getNumFields → ¬ OpenQuote line pos)
    {n pos : Nat} {data : List Datum}
    (hread : ValuesRead (findBuiltinFunction num others) s line startPos pos data)
    (hdata : data.length ≤ s.getNumFields.toNat) (hpos : pos ≤ line.length)
    (hn : line.length ≤ pos + n) :
    ∃ out, readValues line n pos data r = (out, r) ∧
      ValuesOutcome (findBuiltinFunction num others) s line startPos out := by
  obtain ⟨l, ha, -⟩ := (hready.schema s hs).layout
  have hnonneg := ha.numFields_nonneg
  induction n generalizing pos data with
  | zero =>
      have heq : pos = line.length := by omega
      subst heq
      refine ⟨.ok (some data), ?_, hread⟩
      rw [readValues, if_pos rfl]
      rfl
  | succ n ih =>
      by_cases hend : pos = line.length
      · subst hend
        refine ⟨.ok (some data), ?_, hread⟩
        rw [readValues, if_pos rfl]
        rfl
      rw [readValues, if_neg hend, Eff.bind_of_ok (Eff.getState_apply r), hs]
      dsimp only
      by_cases hfull : (data.length : Int) = s.getNumFields
      · rw [if_pos hfull]
        exact ⟨.ok none, rfl, trivial⟩
      rw [if_neg hfull]
      obtain ⟨tok, htok⟩ := findNextToken_of_not_openQuote (hclosed pos data hread hfull)
      rw [htok, Eff.bind_of_ok (Eff.ofExcept_apply _ r)]
      rcases tok with _ | ⟨token, pos'⟩
      · exact ⟨.ok none, rfl, trivial⟩
      dsimp only
      obtain ⟨typ, htyp, hvalue⟩ := readValue_ready hready hs (show data.length < _ by omega) token
      rw [Eff.bind_apply, hvalue]
      cases hcall : functionCall (findBuiltinFunction num others typ.typinfunc)
        [Datum.fromVarlenBytes token] (s.getFieldTypeParam data.length) with
      | error e =>
          exact ⟨.error e, rfl, raisedByInput_of_call (findBootstrapType_some htyp).1 hcall⟩
      | ok d =>
          dsimp only
          cases hnull : d.isnull with
          | true => exact ⟨.ok none, by rw [if_pos rfl]; rfl, trivial⟩
          | false =>
              rw [if_neg Bool.false_ne_true]
              obtain ⟨hlt, hle⟩ := findNextToken_progress htok
              refine ih (.value hread hfull htok htyp hcall hnull) ?_ hle (by omega)
              rw [List.length_append, List.length_singleton]
              omega

end Values

section Columns

variable {num : Numbers} {line : ByteString} {startPos : Nat}

theorem readNumber_of_not_openQuote (t : IntType) (h : ¬ OpenQuote line startPos) :
    ∃ x, readNumber num t line startPos = .ok x := by
  obtain ⟨tok, htok⟩ := findNextToken_of_not_openQuote h
  rw [readNumber, htok, Eff.ok_bind]
  rcases tok with _ | ⟨token, pos⟩
  · exact ⟨none, rfl⟩
  · exact ⟨_, rfl⟩

theorem readNumber_progress {t : IntType} {x pos : Nat}
    (h : readNumber num t line startPos = .ok (some (x, pos))) :
    startPos < pos ∧ pos ≤ line.length := by
  unfold readNumber at h
  obtain ⟨tok, htok, hval⟩ := Eff.except_bind_eq_ok_iff.mp h
  rcases tok with _ | ⟨token, pos'⟩
  · cases hval
  · obtain ⟨y, -, hpair⟩ := Option.map_eq_some_iff.mp (Except.ok.inj hval)
    rw [← (Prod.mk.inj hpair).2]
    exact findNextToken_progress htok

theorem ColumnsRead.length_eq {pos : Nat} {typid typparam : List Nat}
    (h : ColumnsRead num line startPos pos typid typparam) :
    typparam.length = typid.length := by
  induction h with
  | start => rfl
  | column before typid_eq typparam_eq ih =>
      rw [List.length_append, List.length_append, ih]
      rfl

theorem readColumns_outcome
    (htypid : ∀ pos typid typparam, ColumnsRead num line startPos pos typid typparam →
      ¬ OpenQuote line pos)
    (htypparam : ∀ pos typid typparam oid pos', ColumnsRead num line startPos pos typid typparam →
      readNumber num ⟨false, 32⟩ line pos = .ok (some (oid, pos')) → ¬ OpenQuote line pos')
    {n pos : Nat} {typid typparam : List Nat}
    (hread : ColumnsRead num line startPos pos typid typparam) (hpos : pos ≤ line.length)
    (hn : line.length ≤ pos + n) :
    ∃ out, readColumns num line n pos typid typparam = .ok out ∧
      ∀ typid' typparam', out = some (typid', typparam') →
        ColumnsRead num line startPos line.length typid' typparam' := by
  induction n generalizing pos typid typparam with
  | zero =>
      have heq : pos = line.length := by omega
      subst heq
      refine ⟨some (typid, typparam), by rw [readColumns, if_pos rfl], ?_⟩
      rintro _ _ ⟨rfl, rfl⟩
      exact hread
  | succ n ih =>
      by_cases hend : pos = line.length
      · subst hend
        refine ⟨some (typid, typparam), by rw [readColumns, if_pos rfl], ?_⟩
        rintro _ _ ⟨rfl, rfl⟩
        exact hread
      rw [readColumns, if_neg hend]
      obtain ⟨x, hx⟩ := readNumber_of_not_openQuote ⟨false, 32⟩ (htypid pos typid typparam hread)
      rw [hx, Eff.ok_bind]
      rcases x with _ | ⟨oid, pos₁⟩
      · exact ⟨none, rfl, nofun⟩
      dsimp only
      obtain ⟨y, hy⟩ := readNumber_of_not_openQuote ⟨false, 64⟩
        (htypparam pos typid typparam oid pos₁ hread hx)
      rw [hy, Eff.ok_bind]
      rcases y with _ | ⟨param, pos₂⟩
      · exact ⟨none, rfl, nofun⟩
      dsimp only
      have hprogress := readNumber_progress hx
      have hprogress' := readNumber_progress hy
      exact ih (.column hread hx hy) hprogress'.2 (by omega)

variable {builtin : BuiltinTable}

/-- The input functions of known types are entered, and those that were stay. -/
theorem enterInfuncs_known {typid : List Nat}
    (hknown : ∀ oid ∈ typid, (findBootstrapType oid).isSome = true) {r : InitDataFileReader}
    (hfuncs : ∀ oid finfo, r.typInfuncs oid = some finfo →
      ∃ typ, findBootstrapType oid = some typ ∧ finfo = builtin typ.typinfunc) :
    ∃ r', enterInfuncs builtin typid r = (.ok (), r') ∧ r'.schema = r.schema ∧
      (∀ oid finfo, r'.typInfuncs oid = some finfo →
        ∃ typ, findBootstrapType oid = some typ ∧ finfo = builtin typ.typinfunc) ∧
      (∀ oid, (r.typInfuncs oid).isSome = true → (r'.typInfuncs oid).isSome = true) ∧
      ∀ oid ∈ typid, (r'.typInfuncs oid).isSome = true := by
  induction typid generalizing r with
  | nil => exact ⟨r, rfl, rfl, hfuncs, fun _ h => h, fun _ h => nomatch h⟩
  | cons t typid ih =>
      obtain ⟨typ, htyp⟩ := Option.isSome_iff_exists.mp (hknown t List.mem_cons_self)
      have htypid := (findBootstrapType_some htyp).2
      have hknown' : ∀ oid ∈ typid, (findBootstrapType oid).isSome = true :=
        fun oid hoid => hknown oid (List.mem_cons_of_mem t hoid)
      rw [enterInfuncs, htyp]
      dsimp only
      rw [Eff.bind_of_ok (Eff.getState_apply r), htypid]
      by_cases hentered : (r.typInfuncs t).isSome = true
      · rw [if_pos hentered]
        obtain ⟨r', hrun, hschema, hfuncs', hkeep, hall⟩ := ih hknown' hfuncs
        refine ⟨r', hrun, hschema, hfuncs', hkeep, fun oid hoid => ?_⟩
        rcases List.mem_cons.mp hoid with rfl | hoid
        · exact hkeep oid hentered
        · exact hall oid hoid
      · rw [if_neg hentered, Eff.bind_of_ok (show setInfunc t (builtin typ.typinfunc) r = _ from rfl)]
        obtain ⟨r', hrun, hschema, hfuncs', hkeep, hall⟩ := ih hknown' (r :=
          { r with typInfuncs := fun oid =>
              if oid = t then some (builtin typ.typinfunc) else r.typInfuncs oid }) (by
          intro oid finfo hoid
          dsimp only at hoid
          split at hoid
          · rename_i heq
            exact ⟨typ, heq ▸ htyp, (Option.some.inj hoid).symm⟩
          · exact hfuncs oid finfo hoid)
        refine ⟨r', hrun, hschema, hfuncs', fun oid hoid => hkeep oid ?_, fun oid hoid => ?_⟩
        · dsimp only
          split
          · rfl
          · exact hoid
        · rcases List.mem_cons.mp hoid with rfl | hoid
          · exact hkeep oid (by simp)
          · exact hall oid hoid

end Columns

section Next

variable {num : Numbers} {others : BuiltinTable} {r : InitDataFileReader} {line : ByteString}
  {startPos : Nat}

def Good (builtin : BuiltinTable) (out : Except Failure InitLineType × InitDataFileReader) :
    Prop :=
  Allowed builtin out.1 ∧ Ready builtin out.2

theorem finish_good {builtin : BuiltinTable} (hready : Ready builtin r) (state : InitLineType) :
    Good builtin (finish state r) :=
  ⟨trivial, hready.congr rfl rfl⟩

theorem readData_good (hready : Ready (findBuiltinFunction num others) r)
    (hread : DataReadable (findBuiltinFunction num others) r line startPos)
    (hpos : startPos ≤ line.length) :
    Good (findBuiltinFunction num others) (readData line startPos r) := by
  obtain ⟨s, hs⟩ := Option.ne_none_iff_exists'.mp hread.table
  obtain ⟨out, hrun, hout⟩ := readValues_outcome (n := line.length) hready hs
    (fun pos data h => hread.closed s pos data hs h) .start (Nat.zero_le _) hpos (by omega)
  rw [readData, Eff.bind_apply, hrun]
  rcases out with e | _ | data
  · exact ⟨hout, hready⟩
  · exact finish_good hready .error
  dsimp only
  rw [Eff.bind_of_ok (Eff.getState_apply r), hs]
  dsimp only
  by_cases hlen : (data.length : Int) = s.getNumFields
  · obtain ⟨l, ha, hsec⟩ := (hready.schema s hs).layout
    have hlength : data.length = l.length := by
      rw [← ha.fields_eq, length_fields ha.numFields_nonneg]
      omega
    have hnulls : ∀ (i : Nat) (f : FieldInfo) (d : Datum), l[i]? = some f → data[i]? = some d →
        d.isnull = true → f.isNullable = true := by
      intro i f d _ hd hnull
      rw [hout.nonnull d (List.mem_of_getElem? hd)] at hnull
      cases hnull
    obtain ⟨len, hlen'⟩ := (writePayloadToBuffer_returns_iff ha hsec hlength hnulls []).mpr
      (hread.written s data hs hout hlen)
    have hwrite : writeRow s data r =
        (.ok len, { r with buf := (s.writePayloadToBuffer data []).2 }) := by
      rw [writeRow, Eff.bind_of_ok (Eff.modifyState_apply _ _), hlen']
      rfl
    have hready' : Ready (findBuiltinFunction num others)
        { r with buf := (s.writePayloadToBuffer data []).2 } := hready.congr rfl rfl
    rw [if_neg (not_not_intro hlen), Eff.bind_of_ok hwrite]
    split
    · exact finish_good hready' .error
    · exact finish_good hready' .data
  · rw [if_pos hlen]
    exact finish_good hready .error

theorem enterTable_good (hothers : others invalidOid = none)
    (hready : Ready (findBuiltinFunction num others) r) {typid typparam : List Nat}
    (hfit : ColumnsFit (findBuiltinFunction num others) typid typparam)
    (hlen : typparam.length = typid.length) :
    Good (findBuiltinFunction num others)
      (enterTable (findBuiltinFunction num others) typid typparam r) := by
  obtain ⟨s₀, s, l, hcreate, hlayout, hcomp, ha, hs, hmem⟩ :=
    computeLayout_of_fit hothers hfit hlen
  rw [enterTable, hcreate]
  dsimp only
  rw [Eff.bind_of_ok (Eff.modifyState_apply _ _), hlayout,
    Eff.bind_of_ok (Eff.ofExcept_apply _ _), Eff.bind_of_ok (Eff.modifyState_apply _ _), hcomp,
    assert, if_pos rfl, Eff.bind_of_ok (Eff.pure_apply _ _)]
  obtain ⟨r', hrun, hschema, hfuncs, -, hall⟩ := enterInfuncs_known hfit.known
    (r := { r with schema := some s }) hready.infuncs
  rw [Eff.bind_of_ok hrun]
  refine finish_good ⟨hfuncs, ?_⟩ .table
  rw [hschema]
  rintro _ ⟨⟩
  refine ⟨⟨l, ha, hs⟩, fun f hf => ?_⟩
  rw [ha.fields_eq] at hf
  exact hall _ (hmem f hf)

theorem readTable_good (hothers : others invalidOid = none)
    (hready : Ready (findBuiltinFunction num others) r)
    (hread : TableReadable num (findBuiltinFunction num others) line startPos) :
    Good (findBuiltinFunction num others)
      (readTable num (findBuiltinFunction num others) line startPos r) := by
  obtain ⟨x, hx⟩ : ∃ x, readNumber num ⟨false, 32⟩ line startPos = .ok x :=
    readNumber_of_not_openQuote _ hread.closed
  rw [readTable, hx, Eff.bind_of_ok (Eff.ofExcept_apply _ _)]
  rcases x with _ | ⟨tabid, pos⟩
  · exact finish_good hready .error
  dsimp only
  rw [Eff.bind_of_ok (Eff.modifyState_apply _ _)]
  obtain ⟨out, hout, hcolumns⟩ := readColumns_outcome (n := line.length)
    (fun p typid typparam => hread.typid_closed tabid pos p typid typparam hx)
    (fun p typid typparam oid p' => hread.typparam_closed tabid pos p typid typparam oid p' hx)
    .start (readNumber_progress hx).2 (by omega)
  rw [hout, Eff.bind_of_ok (Eff.ofExcept_apply _ _)]
  have hready' : Ready (findBuiltinFunction num others) { r with tabid } := hready.congr rfl rfl
  rcases out with _ | ⟨typid, typparam⟩
  · exact finish_good hready' .error
  have hcols := hcolumns typid typparam rfl
  exact enterTable_good hothers hready' (hread.columns tabid pos typid typparam hx hcols)
    hcols.length_eq

theorem next_good (hothers : others invalidOid = none)
    (hready : Ready (findBuiltinFunction num others) r)
    (hread : LineReadable num (findBuiltinFunction num others) r) :
    Good (findBuiltinFunction num others) (next num (findBuiltinFunction num others) r) := by
  rw [next, Eff.bind_of_ok (Eff.getState_apply r)]
  by_cases hlast : r.lastState = .eof ∨ r.lastState = .error
  · rw [if_pos hlast]
    exact ⟨trivial, hready⟩
  rw [if_neg hlast]
  rcases hline : r.input.getline with ⟨line, input⟩
  obtain ⟨hclosed, hwords⟩ := hread (fun h => hlast (Or.inl h)) (fun h => hlast (Or.inr h))
    line (by rw [hline])
  dsimp only
  rw [Eff.bind_of_ok (Eff.modifyState_apply _ _)]
  have hready' : Ready (findBuiltinFunction num others)
      { r with input := input, lineno := r.lineno + 1 } := hready.congr rfl rfl
  split
  · exact finish_good hready' _
  obtain ⟨tok, htok⟩ := findNextToken_of_not_openQuote hclosed
  rw [readLine, htok, Eff.bind_of_ok (Eff.ofExcept_apply _ _)]
  rcases tok with _ | ⟨word, pos⟩
  · exact finish_good hready' .error
  obtain ⟨hdata, htable⟩ := hwords word pos htok
  dsimp only
  split
  · rename_i hword
    obtain ⟨h₁, h₂, h₃⟩ := hdata hword
    exact readData_good hready' ⟨h₁, h₂, h₃⟩ (findNextToken_progress htok).2
  · split
    · rename_i hword
      exact readTable_good hothers hready' (htable hword)
    · exact finish_good hready' .error

end Next

section Sticky

def ReturnsLast (x : Eff Failure InitDataFileReader InitLineType) : Prop :=
  ∀ r state r', x r = (.ok state, r') → r'.lastState = state

theorem finish_returnsLast (state : InitLineType) : ReturnsLast (finish state) := by
  intro r state' r' h
  obtain ⟨rfl, rfl⟩ := Eff.ok_inj h
  rfl

theorem fail_returnsLast (e : Failure) : ReturnsLast (Eff.fail e) := by
  intro r state r' h
  cases h

theorem ReturnsLast.bind {α : Type} {x : Eff Failure InitDataFileReader α}
    {f : α → Eff Failure InitDataFileReader InitLineType} (hf : ∀ a, ReturnsLast (f a)) :
    ReturnsLast (x >>= f) := by
  intro r state r' h
  obtain ⟨a, t, -, ha⟩ := Eff.bind_eq_ok_iff.mp h
  exact hf a t state r' ha

theorem ReturnsLast.ite {c : Prop} [Decidable c]
    {x y : Eff Failure InitDataFileReader InitLineType} (hx : ReturnsLast x)
    (hy : ReturnsLast y) : ReturnsLast (if c then x else y) := by
  split
  · exact hx
  · exact hy

variable (num : Numbers) (builtin : BuiltinTable)

theorem readData_returnsLast (line : ByteString) (startPos : Nat) :
    ReturnsLast (readData line startPos) := by
  refine .bind fun data? => ?_
  cases data? with
  | none => exact finish_returnsLast _
  | some data =>
      refine .bind fun r => ?_
      cases r.schema with
      | none => exact fail_returnsLast _
      | some s =>
          refine .ite (finish_returnsLast _) (.bind fun len => ?_)
          exact .ite (finish_returnsLast _) (finish_returnsLast _)

theorem readTable_returnsLast (line : ByteString) (startPos : Nat) :
    ReturnsLast (readTable num builtin line startPos) := by
  refine .bind fun tabid? => ?_
  cases tabid? with
  | none => exact finish_returnsLast _
  | some x =>
      refine .bind fun _ => .bind fun columns? => ?_
      rcases columns? with _ | ⟨typid, typparam⟩
      · exact finish_returnsLast _
      refine .bind fun _ => ?_
      cases Schema.create typid typparam (List.replicate typid.length false) with
      | none => exact fail_returnsLast _
      | some s =>
          exact .bind fun _ => .bind fun _ => .bind fun _ => .bind fun _ => finish_returnsLast _

theorem readLine_returnsLast (line : ByteString) : ReturnsLast (readLine num builtin line) := by
  refine .bind fun tok? => ?_
  rcases tok? with _ | ⟨word, pos⟩
  · exact finish_returnsLast _
  · exact .ite (readData_returnsLast line pos)
      (.ite (readTable_returnsLast num builtin line pos) (finish_returnsLast _))

/-- At the end of the file and in an error nothing changes any more. -/
theorem next_final {r : InitDataFileReader} (h : r.lastState = .eof ∨ r.lastState = .error) :
    next num builtin r = (.ok r.lastState, r) := by
  rw [next, Eff.bind_of_ok (Eff.getState_apply r), if_pos h]
  rfl

theorem next_returnsLast : ReturnsLast (next num builtin) := by
  intro r state r' h
  by_cases hlast : r.lastState = .eof ∨ r.lastState = .error
  · rw [next_final num builtin hlast] at h
    obtain ⟨rfl, rfl⟩ := Eff.ok_inj h
    rfl
  · rw [next, Eff.bind_of_ok (Eff.getState_apply r), if_neg hlast] at h
    rcases hline : r.input.getline with ⟨line, input⟩
    rw [hline] at h
    dsimp only at h
    rw [Eff.bind_of_ok (Eff.modifyState_apply _ _)] at h
    exact ReturnsLast.ite (finish_returnsLast _) (readLine_returnsLast num builtin line) _ _ _ h

theorem afterCalls_succ (n : Nat) (r : InitDataFileReader) :
    afterCalls num builtin (n + 1) r = (next num builtin (afterCalls num builtin n r)).2 :=
  Function.iterate_succ_apply' _ n r

/-- Once a call has returned the end or an error, so does every later one. -/
theorem outcome_final {r : InitDataFileReader} {n m : Nat} {state : InitLineType} (hle : n ≤ m)
    (hfinal : state = .eof ∨ state = .error) (h : outcome num builtin n r = .ok state) :
    outcome num builtin m r = .ok state := by
  have hlast : ∀ k, (afterCalls num builtin (n + 1 + k) r).lastState = state := by
    intro k
    induction k with
    | zero =>
        rw [afterCalls_succ]
        exact next_returnsLast num builtin _ state _ (Prod.ext h rfl)
    | succ k ih =>
        rw [← Nat.add_assoc, afterCalls_succ, next_final num builtin (by rw [ih]; exact hfinal)]
        exact ih
  rcases Nat.eq_or_lt_of_le hle with rfl | hlt
  · exact h
  · have hk := hlast (m - (n + 1))
    rw [show n + 1 + (m - (n + 1)) = m by omega] at hk
    rw [outcome, next_final num builtin (by rw [hk]; exact hfinal), hk]

end Sticky

/-- A reader of any file none of whose lines is one of those it has no answer for: every
call returns, or raises the error of an input function, and the end and the error are
final. -/
theorem readerTotal_of_readable {num : Numbers} {others : BuiltinTable}
    (hothers : others invalidOid = none) (input : FileStream) (lineno tabid : Nat)
    (h : ∀ n, LineReadable num (findBuiltinFunction num others)
      (afterCalls num (findBuiltinFunction num others) n (construct input lineno tabid))) :
    ReaderTotal num (findBuiltinFunction num others) (construct input lineno tabid) := by
  have hready : ∀ n, Ready (findBuiltinFunction num others)
      (afterCalls num (findBuiltinFunction num others) n (construct input lineno tabid)) := by
    intro n
    induction n with
    | zero => exact ready_construct _ input lineno tabid
    | succ n ih =>
        rw [afterCalls_succ]
        exact (next_good hothers ih (h n)).2
  exact ⟨fun n => (next_good hothers (hready n) (h n)).1,
    fun n m state hle hfinal hn => outcome_final num _ hle hfinal hn⟩

section Sample

/-- A file with a table of one `OID` column and one row. -/
def sampleFile : FileStream :=
  { opened := true, eof := false, rest := ascii "table 1 100 0\ndata 7\n" }

theorem not_openQuote {line : ByteString} (h : charQuote ∉ line) (p : Nat) : ¬ OpenQuote line p :=
  fun hopen => h (List.mem_of_getElem? hopen.1)

theorem ColumnsRead.readColumns_eq {num : Numbers} {line : ByteString} {startPos pos : Nat}
    {typid typparam : List Nat} (h : ColumnsRead num line startPos pos typid typparam) (n : Nat) :
    readColumns num line (n + typid.length) startPos [] [] =
      readColumns num line n pos typid typparam := by
  induction h generalizing n with
  | start => rfl
  | @column pos pos₁ pos₂ oid param typid typparam before typid_eq typparam_eq ih =>
      have hlt := readNumber_progress typid_eq
      rw [List.length_append, List.length_singleton, ← Nat.add_assoc, Nat.add_right_comm, ih,
        readColumns, if_neg (by omega)]
      rw [typid_eq, Eff.ok_bind]
      dsimp only
      rw [typparam_eq, Eff.ok_bind]

def sampleReader (n : Nat) : InitDataFileReader :=
  afterCalls documentedNumbers documentedBuiltins n (construct sampleFile 0 0)

def sampleTable : Schema :=
  { layoutComputed := true
    hasOnlyNonnullableFixedlenFields := true
    numNonnullableFixedlenFields := 1
    numNullableFixedlenFields := 0
    numVarlenFields := 0
    nullBitmapBegin := 8
    varlenEndArrayBegin := 8
    varlenPayloadBegin := 8
    fieldReorderIdx := [0]
    field := [⟨100, 4, 4, false, 0, -1, 0⟩]
    fieldNames := [] }

theorem sample_readColumns (n : Nat) :
    readColumns documentedNumbers (ascii "table 1 100 0") (n + 1) 8 [] [] =
      .ok (some ([100], [0])) := by
  have htypid : readNumber documentedNumbers ⟨false, 32⟩ (ascii "table 1 100 0") 8 =
      .ok (some (100, 12)) := by decide +kernel
  have htypparam : readNumber documentedNumbers ⟨false, 64⟩ (ascii "table 1 100 0") 12 =
      .ok (some (0, 13)) := by decide +kernel
  rw [readColumns, if_neg (by decide), htypid, Eff.ok_bind]
  dsimp only
  rw [htypparam, Eff.ok_bind]
  cases n <;> exact if_pos (by decide)

theorem sample_columnsFit : ColumnsFit documentedBuiltins [100] [0] where
  nonempty := List.cons_ne_nil _ _
  number := by decide
  known := by decide +kernel
  layout := by
    refine Or.inl ?_
    have hplain : ∀ f ∈ (Schema.construct [100] [0] [false] []).fields.map
        (resolveField bootstrapType documentedBuiltins), f.isPlain = true := by
      decide +kernel
    exact (if_pos hplain).mpr ⟨⟨by decide +kernel, trivial⟩, by decide +kernel⟩

theorem sample_tableReadable :
    TableReadable documentedNumbers documentedBuiltins (ascii "table 1 100 0") 6 := by
  have hclosed := not_openQuote (show charQuote ∉ ascii "table 1 100 0" by decide)
  refine ⟨hclosed 6, fun _ _ pos _ _ _ _ => hclosed pos, fun _ _ _ _ _ _ pos _ _ _ => hclosed pos,
    fun tabid start typid typparam htabid hcols => ?_⟩
  have hnumber : readNumber documentedNumbers ⟨false, 32⟩ (ascii "table 1 100 0") 6 =
      .ok (some (1, 8)) := by decide +kernel
  obtain ⟨rfl, rfl⟩ := Prod.mk.inj (Option.some.inj (Except.ok.inj (hnumber.symm.trans htabid)))
  have hend := hcols.readColumns_eq 1
  rw [Nat.add_comm, sample_readColumns, readColumns, if_pos rfl] at hend
  obtain ⟨rfl, rfl⟩ := Prod.mk.inj (Option.some.inj (Except.ok.inj hend))
  exact sample_columnsFit

theorem plainFits_sampleTable : PlainFits sampleTable.fields 0 8 := by
  intro f hf _
  rw [List.mem_singleton.mp hf]
  decide

theorem sample_dataReadable :
    DataReadable documentedBuiltins (sampleReader 1) (ascii "data 7") 5 := by
  have hclosed := not_openQuote (show charQuote ∉ ascii "data 7" by decide)
  have hschema : (sampleReader 1).schema = some sampleTable := by decide +kernel
  refine ⟨by rw [hschema]; nofun, fun _ pos _ _ _ _ => hclosed pos, fun s data hs _ _ => ?_⟩
  rw [hschema] at hs
  cases hs
  -- a row of fixed-length values is written whatever they are
  exact Or.inr (Or.inr ⟨plainFits_sampleTable, Or.inl (by decide)⟩)

/-- A line without quotes can be read when its first word can. -/
theorem lineReadable_of_word {r : InitDataFileReader} {line word : ByteString} {pos : Nat}
    (hline : r.input.getline.1 = line) (hquote : charQuote ∉ line)
    (hword : findNextToken line 0 = .ok (some (word, pos)))
    (hdata : word = ascii "data" → DataReadable documentedBuiltins r line pos)
    (htable : word = ascii "table" → TableReadable documentedNumbers documentedBuiltins line pos) :
    LineReadable documentedNumbers documentedBuiltins r := by
  rintro - - _ rfl
  rw [hline]
  refine ⟨not_openQuote hquote 0, fun word' pos' hword' => ?_⟩
  cases hword.symm.trans hword'
  exact ⟨hdata, htable⟩

theorem sample_last (n : Nat) : (sampleReader (n + 3)).lastState = .eof := by
  have hout : outcome documentedNumbers documentedBuiltins 2 (construct sampleFile 0 0) =
      .ok .eof := by decide +kernel
  have hlast := outcome_final documentedNumbers documentedBuiltins
    (show 2 ≤ n + 2 by omega) (Or.inl rfl) hout
  rw [sampleReader, afterCalls_succ]
  exact next_returnsLast documentedNumbers documentedBuiltins _ _ _ (Prod.ext hlast rfl)

theorem sample_lineReadable : ∀ n,
    LineReadable documentedNumbers documentedBuiltins (sampleReader n)
  | 0 => lineReadable_of_word (show _ = ascii "table 1 100 0" by decide +kernel) (by decide)
      (show _ = Except.ok (some (ascii "table", 6)) by decide +kernel)
      (fun h => absurd h (by decide)) fun _ => sample_tableReadable
  | 1 => lineReadable_of_word (show _ = ascii "data 7" by decide +kernel) (by decide)
      (show _ = Except.ok (some (ascii "data", 5)) by decide +kernel)
      (fun _ => sample_dataReadable) fun h => absurd h (by decide)
  | 2 => by
      have hend : (sampleReader 2).input.getline.1 = [] := by decide +kernel
      rintro - - _ rfl
      rw [hend]
      refine ⟨not_openQuote List.not_mem_nil 0, fun word pos hword => ?_⟩
      cases hword
  | n + 3 => fun h => absurd (sample_last n) h

/-- The reader of that file. -/
theorem readerTotal_of_readable_sample :
    ReaderTotal documentedNumbers documentedBuiltins (construct sampleFile 0 0) :=
  readerTotal_of_readable rfl sampleFile 0 0 sample_lineReadable

/-- A data line without a table line before it uses a null schema. -/
theorem dataFirst_not_readerTotal :
    ¬ ReaderTotal documentedNumbers documentedBuiltins
      (construct { opened := true, eof := false, rest := ascii "data 1\n" } 0 0) := by
  intro h
  have hout : outcome documentedNumbers documentedBuiltins 0
      (construct { opened := true, eof := false, rest := ascii "data 1\n" } 0 0) =
        .error (.undefined "null schema") := by decide +kernel
  have hfirst := h.1 0
  rw [hout] at hfirst
  obtain ⟨⟨msg, hmsg⟩, -⟩ := hfirst
  cases hmsg

end Sample

end InitDataFileReader

end Taco
