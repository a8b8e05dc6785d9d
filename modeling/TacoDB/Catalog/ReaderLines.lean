import TacoDB.Catalog.InitSections

/-!
# The calls of the reader

One call of `next` on a reader that has gone through some lines of a file: with the sections
of these lines and the lines that are left, it is known what the call returns when the next
line adds to the sections, and that it does so when the call returns a table or a row.
-/

namespace Taco

open Schema

namespace InitDataFileReader

variable {num : Numbers} {others : BuiltinTable} {builtin : BuiltinTable} {r r' : InitDataFileReader}
  {line : ByteString}

section Tables

theorem getFieldTypeId_mem {typid typparam : List Nat} {s₀ s : Schema}
    (hcreate : Schema.create typid typparam (List.replicate typid.length false) = some s₀)
    (hlayout : computeLayout builtin s₀ = .ok s) :
    0 ≤ s.getNumFields ∧ ∀ i : Nat, (i : Int) < s.getNumFields → s.getFieldTypeId i ∈ typid := by
  rcases hrun : s₀.computeLayoutImpl (fun oid =>
    (pure (findBootstrapType oid) : Eff Failure Unit _)) builtin () with ⟨out, u⟩
  have hout : out = .ok s := by
    have := hlayout
    rw [computeLayout, hrun] at this
    exact this
  subst hout
  obtain ⟨hnonneg, hcolumn, -⟩ := computeLayoutImpl_frame hrun
  have hlen : s.field.length = s₀.field.length := by
    rw [← List.length_map (f := FieldInfo.column), hcolumn, List.length_map]
  have hnum : s.getNumFields = s₀.getNumFields := by rw [getNumFields, getNumFields, hlen]
  rw [hnum]
  refine ⟨hnonneg, fun i hi => ?_⟩
  have hfields := length_fields hnonneg
  have hlt : i < s₀.fields.length := by omega
  have hget : s₀.field[i]? = some s₀.fields[i] := by
    rw [← List.getElem?_eq_getElem hlt, fields, List.getElem?_take_of_lt (by omega)]
  obtain ⟨f, hf⟩ : ∃ f, s.field[i]? = some f := by
    have hlt' := (List.getElem?_eq_some_iff.mp hget).1
    exact ⟨_, List.getElem?_eq_getElem (hlen ▸ hlt')⟩
  have hsame : f.column = s₀.fields[i].column := by
    have := congrArg (·[i]?) hcolumn
    simp only [List.getElem?_map, hf, hget, Option.map_some, Option.some.injEq] at this
    exact this
  have htypid : s.getFieldTypeId i = s₀.fields[i].typid := by
    rw [getFieldTypeId, fieldAt, List.getD_eq_getElem?_getD, hf, Option.getD_some]
    have hfst := congrArg Prod.fst hsame
    simp only [FieldInfo.column] at hfst
    exact hfst
  rw [htypid]
  exact typid_of_mem_initFields (mem_initFields_of_create hcreate (List.getElem_mem hlt))

/-- The types on a table line are known when their input functions have been entered. -/
theorem known_of_enterInfuncs {typid : List Nat} (h : enterInfuncs builtin typid r = (.ok (), r')) :
    ∀ oid ∈ typid, (findBootstrapType oid).isSome = true := by
  induction typid generalizing r with
  | nil => exact fun oid hoid => nomatch hoid
  | cons t typid ih =>
      rw [enterInfuncs] at h
      cases htyp : findBootstrapType t with
      | none =>
          rw [htyp] at h
          cases h
      | some typ =>
          rw [htyp] at h
          dsimp only at h
          rw [Eff.bind_of_ok (Eff.getState_apply r)] at h
          have hrest : ∃ r₁, enterInfuncs builtin typid r₁ = (.ok (), r') := by
            split at h
            · exact ⟨r, h⟩
            · obtain ⟨u, r₁, -, hrun⟩ := Eff.bind_eq_ok_iff.mp h
              exact ⟨r₁, hrun⟩
          obtain ⟨r₁, hrun⟩ := hrest
          intro oid hoid
          rcases List.mem_cons.mp hoid with rfl | hoid
          · rw [htyp]
            rfl
          · exact ih hrun oid hoid

theorem enterInfuncs_frame {typid : List Nat} (h : enterInfuncs builtin typid r = (.ok (), r')) :
    ∃ f, r' = { r with typInfuncs := f } := by
  induction typid generalizing r with
  | nil => exact ⟨r.typInfuncs, (Eff.ok_inj h).2.symm⟩
  | cons t typid ih =>
      rw [enterInfuncs] at h
      cases htyp : findBootstrapType t with
      | none =>
          rw [htyp] at h
          cases h
      | some typ =>
          rw [htyp] at h
          dsimp only at h
          rw [Eff.bind_of_ok (Eff.getState_apply r)] at h
          split at h
          · exact ih h
          · obtain ⟨u, r₁, hset, hrun⟩ := Eff.bind_eq_ok_iff.mp h
            obtain ⟨f, rfl⟩ := ih hrun
            obtain ⟨-, rfl⟩ := Eff.ok_inj hset
            exact ⟨f, rfl⟩

theorem enterTable_ok (hfuncs : InfuncsOf builtin r) {typid typparam : List Nat}
    (h : enterTable builtin typid typparam r = (.ok .table, r')) :
    ∃ s, tableSchema builtin typid typparam = some s ∧ r'.schema = some s ∧
      r'.input = r.input ∧ r'.tabid = r.tabid ∧ r'.lastState = .table ∧ Entered builtin r' s := by
  rw [enterTable, Eff.bind_of_ok (Eff.modifyState_apply _ _)] at h
  cases hcreate : Schema.create typid typparam (List.replicate typid.length false) with
  | none =>
      rw [hcreate] at h
      cases h
  | some s₀ =>
      rw [hcreate] at h
      dsimp only at h
      obtain ⟨s, r₁, hlayout, h⟩ := Eff.bind_eq_ok_iff.mp h
      obtain ⟨hs, rfl⟩ := Prod.mk.inj hlayout
      rw [Eff.bind_of_ok (Eff.modifyState_apply _ _)] at h
      obtain ⟨u, r₂, hassert, h⟩ := Eff.bind_eq_ok_iff.mp h
      obtain ⟨hcomp, rfl⟩ := assert_ok hassert
      obtain ⟨u', r₃, henter, h⟩ := Eff.bind_eq_ok_iff.mp h
      obtain ⟨-, rfl⟩ := Eff.ok_inj h
      have hknown := known_of_enterInfuncs henter
      obtain ⟨hnonneg, hmem⟩ := getFieldTypeId_mem hcreate hs
      have hentered : Entered builtin r₃ s := by
        obtain ⟨r₄, hrun, -, hinfuncs, -, hall⟩ := enterInfuncs_known hknown
          (r := { r with schema := some s }) hfuncs
        rw [henter] at hrun
        obtain ⟨-, rfl⟩ := Eff.ok_inj hrun
        exact ⟨hinfuncs, hnonneg, fun i hi => hall _ (hmem i hi)⟩
      obtain ⟨f, rfl⟩ := enterInfuncs_frame henter
      refine ⟨s, ?_, rfl, rfl, rfl, rfl, hentered.congr rfl⟩
      rw [tableSchema, hcreate]
      refine Option.bind_eq_some_iff.mpr ⟨s₀, rfl, Option.bind_eq_some_iff.mpr ⟨s, ?_, ?_⟩⟩
      · rw [hs]
        rfl
      · rw [if_pos ⟨hcomp, hknown⟩]
        rfl

theorem enterTable_succeeds (hfuncs : InfuncsOf builtin r) {typid typparam : List Nat} {s : Schema}
    (h : tableSchema builtin typid typparam = some s) :
    ∃ r', enterTable builtin typid typparam r = (.ok .table, r') := by
  obtain ⟨s₀, hcreate, h⟩ := Option.bind_eq_some_iff.mp h
  obtain ⟨s', hs, h⟩ := Option.bind_eq_some_iff.mp h
  by_cases hcond : s'.isLayoutComputed = true ∧
      ∀ oid ∈ typid, (findBootstrapType oid).isSome = true
  · obtain ⟨hcomp, hknown⟩ := hcond
    have hlayout : computeLayout builtin s₀ = .ok s' := by
      cases hl : computeLayout builtin s₀ with
      | error e =>
          rw [hl] at hs
          cases hs
      | ok s₁ =>
          rw [hl] at hs
          rw [Option.some.inj hs]
    rw [enterTable, hcreate]
    dsimp only
    rw [Eff.bind_of_ok (Eff.modifyState_apply _ _), hlayout,
      Eff.bind_of_ok (Eff.ofExcept_apply _ _), Eff.bind_of_ok (Eff.modifyState_apply _ _), hcomp,
      assert, if_pos rfl, Eff.bind_of_ok (Eff.pure_apply _ _)]
    obtain ⟨r₁, hrun, -⟩ := enterInfuncs_known hknown
      (r := { r with schema := some s' }) hfuncs
    rw [Eff.bind_of_ok hrun]
    exact ⟨_, rfl⟩
  · rw [if_neg hcond] at h
    cases h

/-- A table line behind its first word succeeds exactly when its tokens make a section. -/
theorem readTable_ok (hfuncs : InfuncsOf builtin r) {pos : Nat} (hpos : pos ≤ line.length)
    (h : readTable num builtin line pos r = (.ok .table, r')) :
    ∃ toks sec, tokensFrom line line.length pos = .ok (some toks) ∧
      tableLine num builtin toks = some sec ∧ r'.tabid = sec.tabid ∧
      r'.schema = some sec.schema ∧ r'.input = r.input ∧ r'.lastState = .table ∧
      Entered builtin r' sec.schema := by
  obtain ⟨x, r₁, hnumber, h⟩ := Eff.bind_eq_ok_iff.mp h
  obtain ⟨hx, rfl⟩ := Prod.mk.inj hnumber
  rcases x with _ | ⟨tabid, pos₁⟩
  · cases (Eff.ok_inj h).1
  dsimp only at h
  rw [Eff.bind_of_ok (Eff.modifyState_apply _ _)] at h
  obtain ⟨y, r₂, hcolumns, h⟩ := Eff.bind_eq_ok_iff.mp h
  obtain ⟨hy, rfl⟩ := Prod.mk.inj hcolumns
  rcases y with _ | ⟨typid, typparam⟩
  · cases (Eff.ok_inj h).1
  dsimp only at h
  have hlt := readNumber_progress hx
  obtain ⟨tok, v, htok, hv, rfl⟩ := readNumber_iff.mp hx
  obtain ⟨toks, ts, ps, htoks, hcols, rfl, rfl⟩ :=
    (readColumns_iff hlt.2 (Nat.le_add_left _ _)).mp hy
  have hfuncs' : InfuncsOf builtin { r with tabid := v.toNat } := hfuncs.congr rfl
  obtain ⟨s, hs, hschema, hinput, htabid, hlast, hentered⟩ := enterTable_ok hfuncs' h
  have hend : pos ≠ line.length := by
    rintro rfl
    exact findNextToken_end htok
  have htoks' : tokensFrom line line.length pos = .ok (some (tok :: toks)) := by
    obtain ⟨n, hn⟩ : ∃ n, line.length = n + 1 := ⟨line.length - 1, by omega⟩
    have hfuel : tokensFrom line n pos₁ = tokensFrom line line.length pos₁ :=
      tokensFrom_fuel hlt.2 (by omega) (by omega)
    rw [← hfuel] at htoks
    have := (tokensFrom_succ hend htok).mpr ⟨toks, htoks, rfl⟩
    rwa [← hn] at this
  refine ⟨tok :: toks, { tabid := v.toNat, schema := s, rows := [] }, htoks', ?_, htabid, hschema,
    hinput, hlast, hentered⟩
  rw [tableLine, hv]
  refine Option.bind_eq_some_iff.mpr ⟨v, rfl, Option.bind_eq_some_iff.mpr ⟨_, hcols, ?_⟩⟩
  exact Option.bind_eq_some_iff.mpr ⟨s, hs, rfl⟩

theorem readTable_succeeds (hfuncs : InfuncsOf builtin r) {pos : Nat} (hpos : pos ≤ line.length)
    {toks : List ByteString} {sec : InitSection}
    (htoks : tokensFrom line line.length pos = .ok (some toks))
    (h : tableLine num builtin toks = some sec) :
    ∃ r', readTable num builtin line pos r = (.ok .table, r') := by
  cases toks with
  | nil => cases h
  | cons tok toks =>
      obtain ⟨v, hv, h⟩ := Option.bind_eq_some_iff.mp h
      obtain ⟨⟨ts, ps⟩, hcols, h⟩ := Option.bind_eq_some_iff.mp h
      obtain ⟨s, hs, -⟩ := Option.bind_eq_some_iff.mp h
      obtain ⟨n, pos₁, hn, htok⟩ := findNextToken_of_tokensFrom htoks
      have hlt := findNextToken_progress htok
      have hend : pos ≠ line.length := by
        rintro rfl
        exact findNextToken_end htok
      rw [hn] at htoks
      obtain ⟨toks', htoks', heq⟩ := (tokensFrom_succ hend htok).mp htoks
      obtain ⟨-, rfl⟩ := List.cons.inj heq
      have hfuel : tokensFrom line n pos₁ = tokensFrom line line.length pos₁ :=
        tokensFrom_fuel hlt.2 (by omega) (by omega)
      rw [hfuel] at htoks'
      have hx := readNumber_iff.mpr ⟨tok, v, htok, hv, rfl⟩
      have hy : readColumns num line line.length pos₁ [] [] = .ok (some (ts, ps)) :=
        (readColumns_iff hlt.2 (Nat.le_add_left _ _)).mpr ⟨toks, ts, ps, htoks', hcols, rfl, rfl⟩
      have hfuncs' : InfuncsOf builtin { r with tabid := v.toNat } := hfuncs.congr rfl
      obtain ⟨r', hrun⟩ := enterTable_succeeds hfuncs' hs
      refine ⟨r', ?_⟩
      rw [readTable, hx, Eff.bind_of_ok (Eff.ofExcept_apply _ _)]
      dsimp only
      rw [Eff.bind_of_ok (Eff.modifyState_apply _ _), hy, Eff.bind_of_ok (Eff.ofExcept_apply _ _)]
      exact hrun

end Tables

section Lines

variable (num builtin)

def TableOn (line : ByteString) (sec : InitSection) : Prop :=
  ∃ toks, tokens line = .ok (some (ascii "table" :: toks)) ∧ tableLine num builtin toks = some sec

def RowOn (s : Schema) (line : ByteString) (row : List Datum) : Prop :=
  ∃ toks, tokens line = .ok (some (ascii "data" :: toks)) ∧ dataRow builtin s toks = some row

variable {num builtin}

theorem addLine_iff {secs secs' : List InitSection} :
    addLine num builtin secs line = some secs' ↔
      (∃ sec, TableOn num builtin line sec ∧ secs' = sec :: secs) ∨
        ∃ sec older row, secs = sec :: older ∧ RowOn builtin sec.schema line row ∧
          secs' = sec.addRow row :: older := by
  constructor
  · intro h
    unfold addLine at h
    split at h
    · rename_i word toks htoks
      by_cases hdata : word = ascii "data"
      · subst hdata
        rw [if_pos rfl] at h
        cases secs with
        | nil => cases h
        | cons sec older =>
            obtain ⟨row, hrow, rfl⟩ := Option.map_eq_some_iff.mp h
            exact Or.inr ⟨sec, older, row, rfl, ⟨toks, htoks, hrow⟩, rfl⟩
      · rw [if_neg hdata] at h
        by_cases htable : word = ascii "table"
        · subst htable
          rw [if_pos rfl] at h
          obtain ⟨sec, hsec, rfl⟩ := Option.map_eq_some_iff.mp h
          exact Or.inl ⟨sec, ⟨toks, htoks, hsec⟩, rfl⟩
        · rw [if_neg htable] at h
          cases h
    · cases h
  · rintro (⟨sec, ⟨toks, htoks, hsec⟩, rfl⟩ | ⟨sec, older, row, rfl, ⟨toks, htoks, hrow⟩, rfl⟩)
    · rw [addLine, htoks]
      dsimp only
      rw [if_neg (by decide), if_pos rfl, hsec]
      rfl
    · rw [addLine, htoks]
      dsimp only
      rw [if_pos rfl, hrow]
      rfl

theorem tokens_cons_iff {word : ByteString} {toks : List ByteString} :
    tokens line = .ok (some (word :: toks)) ↔
      ∃ pos, findNextToken line 0 = .ok (some (word, pos)) ∧
        tokensFrom line line.length pos = .ok (some toks) := by
  have hstep : ∀ {pos : Nat}, findNextToken line 0 = .ok (some (word, pos)) →
      (tokens line = .ok (some (word :: toks)) ↔
        tokensFrom line line.length pos = .ok (some toks)) := by
    intro pos hword
    have hlt := findNextToken_progress hword
    have hend : 0 ≠ line.length := by omega
    obtain ⟨n, hn⟩ : ∃ n, line.length = n + 1 := ⟨line.length - 1, by omega⟩
    have hfuel : tokensFrom line n pos = tokensFrom line line.length pos :=
      tokensFrom_fuel hlt.2 (by omega) (by omega)
    rw [tokens, ← hfuel, hn, tokensFrom_succ hend hword]
    constructor
    · rintro ⟨rest, hrest, heq⟩
      obtain ⟨-, rfl⟩ := List.cons.inj heq
      exact hrest
    · intro hrest
      exact ⟨toks, hrest, rfl⟩
  constructor
  · intro h
    have hfirst := h
    rw [tokens] at hfirst
    obtain ⟨n, pos, -, hword⟩ := findNextToken_of_tokensFrom hfirst
    exact ⟨pos, hword, (hstep hword).mp h⟩
  · rintro ⟨pos, hword, htoks⟩
    exact (hstep hword).mpr htoks

/-- The reader has come to these lines, with this schema for the rows. -/
structure ReaderAt (builtin : BuiltinTable) (r : InitDataFileReader) (schema : Option Schema)
    (lines : List ByteString) : Prop where
  going : ¬ (r.lastState = .eof ∨ r.lastState = .error)
  opened : r.input.opened = true
  pending : r.input.pending = lines
  schema_eq : r.schema = schema
  infuncs : InfuncsOf builtin r
  entered : ∀ s, schema = some s → Entered builtin r s

def Encodes (s : Schema) (row : List Datum) (buf : ByteString) : Prop :=
  ∃ len, s.writePayloadToBuffer row [] = (.ok len, buf) ∧ len ≠ -1

section

variable {schema : Option Schema} {lines : List ByteString} {state : InitLineType}

theorem readData_state {pos : Nat} (h : readData line pos r = (.ok state, r')) :
    state = .error ∨ state = .data := by
  obtain ⟨out, r₁, -, h⟩ := Eff.bind_eq_ok_iff.mp h
  rcases out with _ | values
  · exact Or.inl (Eff.ok_inj h).1.symm
  obtain ⟨r₂, r₃, hstate, h⟩ := Eff.bind_eq_ok_iff.mp h
  cases hs : r₂.schema with
  | none =>
      rw [hs] at h
      cases h
  | some s =>
      rw [hs] at h
      dsimp only at h
      split at h
      · exact Or.inl (Eff.ok_inj h).1.symm
      obtain ⟨len, r₄, -, h⟩ := Eff.bind_eq_ok_iff.mp h
      split at h
      · exact Or.inl (Eff.ok_inj h).1.symm
      · exact Or.inr (Eff.ok_inj h).1.symm

theorem readTable_state {pos : Nat} (h : readTable num builtin line pos r = (.ok state, r')) :
    state = .error ∨ state = .table := by
  obtain ⟨x, r₁, -, h⟩ := Eff.bind_eq_ok_iff.mp h
  rcases x with _ | ⟨tabid, pos₁⟩
  · exact Or.inl (Eff.ok_inj h).1.symm
  obtain ⟨u, r₂, -, h⟩ := Eff.bind_eq_ok_iff.mp h
  obtain ⟨y, r₃, -, h⟩ := Eff.bind_eq_ok_iff.mp h
  rcases y with _ | ⟨typid, typparam⟩
  · exact Or.inl (Eff.ok_inj h).1.symm
  obtain ⟨u', r₄, -, h⟩ := Eff.bind_eq_ok_iff.mp h
  cases hcreate : Schema.create typid typparam (List.replicate typid.length false) with
  | none =>
      rw [hcreate] at h
      cases h
  | some s₀ =>
      rw [hcreate] at h
      obtain ⟨s, r₅, -, h⟩ := Eff.bind_eq_ok_iff.mp h
      obtain ⟨-, r₆, -, h⟩ := Eff.bind_eq_ok_iff.mp h
      obtain ⟨-, r₇, -, h⟩ := Eff.bind_eq_ok_iff.mp h
      obtain ⟨-, r₈, -, h⟩ := Eff.bind_eq_ok_iff.mp h
      exact Or.inr (Eff.ok_inj h).1.symm

theorem readData_noSchema {pos : Nat} (hs : r.schema = none) :
    readData line pos r ≠ (.ok .data, r') := by
  intro h
  obtain ⟨out, r₁, hvalues, hrest⟩ := Eff.bind_eq_ok_iff.mp h
  rcases out with _ | values
  · cases (Eff.ok_inj hrest).1
  have hr₁ : r₁ = r := by
    unfold readValues at hvalues
    split at hvalues
    · exact (Eff.ok_inj hvalues).2.symm
    · cases hn : line.length with
      | zero =>
          rw [hn] at hvalues
          cases hvalues
      | succ n =>
          rw [hn] at hvalues
          dsimp only at hvalues
          rw [Eff.bind_of_ok (Eff.getState_apply r), hs] at hvalues
          cases hvalues
  subst hr₁
  dsimp only at hrest
  rw [Eff.bind_of_ok (Eff.getState_apply r₁), hs] at hrest
  cases hrest

variable (num) in
theorem next_eof (h : ReaderAt builtin r schema []) : ∃ r', next num builtin r = (.ok .eof, r') := by
  rcases getline_cases h.opened with ⟨-, hline, heof⟩ | ⟨hpending, -, -⟩
  · rw [next, Eff.bind_of_ok (Eff.getState_apply r), if_neg h.going]
    rcases hget : r.input.getline with ⟨line, input⟩
    rw [hget] at hline heof
    dsimp only at hline heof ⊢
    rw [Eff.bind_of_ok (Eff.modifyState_apply _ _), if_pos hline, heof]
    exact ⟨_, rfl⟩
  · rw [h.pending] at hpending
    cases hpending

variable (num) in
theorem next_line (h : ReaderAt builtin r schema (line :: lines)) :
    ∃ r₁, ReaderAt builtin r₁ schema lines ∧
      next num builtin r = (if line = [] then finish .error else readLine num builtin line) r₁ := by
  rcases getline_cases h.opened with ⟨hpending, -, -⟩ | ⟨hpending, hopened, heof⟩
  · rw [h.pending] at hpending
    cases hpending
  · rw [h.pending] at hpending
    obtain ⟨hline, hlines⟩ := List.cons.inj hpending
    rcases hget : r.input.getline with ⟨line', input⟩
    rw [hget] at hline hlines hopened heof
    dsimp only at hline hlines hopened heof
    subst hline
    refine ⟨{ r with input, lineno := r.lineno + 1 }, ⟨h.going, hopened, hlines.symm, h.schema_eq,
      h.infuncs.congr rfl, fun s hs => (h.entered s hs).congr rfl⟩, ?_⟩
    rw [next, Eff.bind_of_ok (Eff.getState_apply r), if_neg h.going, hget]
    dsimp only
    rw [Eff.bind_of_ok (Eff.modifyState_apply _ _)]
    by_cases hnil : line = []
    · rw [if_pos hnil, if_pos hnil, heof hnil]
      rfl
    · rw [if_neg hnil, if_neg hnil]

theorem next_ok (h : ReaderAt (findBuiltinFunction num others) r schema (line :: lines))
    (hrun : next num (findBuiltinFunction num others) r = (.ok state, r')) :
    state = .error ∨
      (state = .table ∧ ∃ sec, TableOn num (findBuiltinFunction num others) line sec ∧
        r'.tabid = sec.tabid ∧
        ReaderAt (findBuiltinFunction num others) r' (some sec.schema) lines) ∨
      (state = .data ∧ ∃ s row, schema = some s ∧
        RowOn (findBuiltinFunction num others) s line row ∧ Encodes s row r'.buf ∧
        ReaderAt (findBuiltinFunction num others) r' schema lines) := by
  obtain ⟨r₁, h₁, hnext⟩ := next_line num h
  rw [hnext] at hrun
  by_cases hnil : line = []
  · rw [if_pos hnil] at hrun
    exact Or.inl (Eff.ok_inj hrun).1.symm
  rw [if_neg hnil] at hrun
  obtain ⟨tok, r₂, htok, hrun⟩ := Eff.bind_eq_ok_iff.mp hrun
  obtain ⟨hword, rfl⟩ := Prod.mk.inj htok
  rcases tok with _ | ⟨word, pos⟩
  · exact Or.inl (Eff.ok_inj hrun).1.symm
  have hpos := (findNextToken_progress hword).2
  dsimp only at hrun
  by_cases hdata : word = ascii "data"
  · subst hdata
    rw [if_pos rfl] at hrun
    rcases readData_state hrun with rfl | rfl
    · exact Or.inl rfl
    refine Or.inr (Or.inr ⟨rfl, ?_⟩)
    cases hschema : schema with
    | none =>
        have hs := h₁.schema_eq
        rw [hschema] at hs
        exact absurd hrun (readData_noSchema hs)
    | some s =>
        have hs := h₁.schema_eq
        rw [hschema] at hs
        obtain ⟨toks, row, len, buf, htoks, hrow, hwrite, hne, rfl⟩ :=
          (readData_iff (h₁.entered s hschema) hs).mp hrun
        refine ⟨s, row, rfl, ⟨toks, tokens_cons_iff.mpr ⟨pos, hword, htoks⟩, hrow⟩,
          ⟨len, hwrite, hne⟩, ?_⟩
        exact ⟨by simp, h₁.opened, h₁.pending, hs, h₁.infuncs.congr rfl,
          fun s' hs' => (h₁.entered s' (hschema.trans hs')).congr rfl⟩
  · rw [if_neg hdata] at hrun
    by_cases htable : word = ascii "table"
    · subst htable
      rw [if_pos rfl] at hrun
      rcases readTable_state hrun with rfl | rfl
      · exact Or.inl rfl
      obtain ⟨toks, sec, htoks, hsec, htabid, hschema, hinput, hlast, hentered⟩ :=
        readTable_ok h₁.infuncs hpos hrun
      refine Or.inr (Or.inl ⟨rfl, sec, ⟨toks, tokens_cons_iff.mpr ⟨pos, hword, htoks⟩, hsec⟩,
        htabid, ?_⟩)
      refine ⟨by simp [hlast], by rw [hinput]; exact h₁.opened, by rw [hinput]; exact h₁.pending,
        hschema, hentered.infuncs, ?_⟩
      rintro s ⟨⟩
      exact hentered
    · rw [if_neg htable] at hrun
      exact Or.inl (Eff.ok_inj hrun).1.symm

theorem next_table (h : ReaderAt builtin r schema (line :: lines)) {sec : InitSection}
    (hsec : TableOn num builtin line sec) : ∃ r', next num builtin r = (.ok .table, r') := by
  obtain ⟨r₁, h₁, hnext⟩ := next_line num h
  obtain ⟨toks, htoks, hsec⟩ := hsec
  obtain ⟨pos, hword, htoks⟩ := tokens_cons_iff.mp htoks
  have hlt := findNextToken_progress hword
  have hnil : line ≠ [] := by
    rintro rfl
    exact absurd hlt.1 (by have := hlt.2; simp at this; omega)
  obtain ⟨r', hrun⟩ := readTable_succeeds h₁.infuncs hlt.2 htoks hsec
  refine ⟨r', ?_⟩
  rw [hnext, if_neg hnil, readLine, hword, Eff.bind_of_ok (Eff.ofExcept_apply _ _)]
  dsimp only
  rw [if_neg (by decide), if_pos rfl]
  exact hrun

theorem next_data {s : Schema} {row : List Datum} {buf : ByteString}
    (h : ReaderAt (findBuiltinFunction num others) r (some s) (line :: lines))
    (hrow : RowOn (findBuiltinFunction num others) s line row) (hbuf : Encodes s row buf) :
    ∃ r', next num (findBuiltinFunction num others) r = (.ok .data, r') := by
  obtain ⟨r₁, h₁, hnext⟩ := next_line num h
  obtain ⟨toks, htoks, hrow⟩ := hrow
  obtain ⟨pos, hword, htoks⟩ := tokens_cons_iff.mp htoks
  have hlt := findNextToken_progress hword
  have hnil : line ≠ [] := by
    rintro rfl
    exact absurd hlt.1 (by have := hlt.2; simp at this; omega)
  obtain ⟨len, hwrite, hne⟩ := hbuf
  have hrun := (readData_iff (h₁.entered s rfl) h₁.schema_eq).mpr
    ⟨toks, row, len, buf, htoks, hrow, hwrite, hne, rfl⟩
  refine ⟨{ r₁ with buf, lastState := .data }, ?_⟩
  rw [hnext, if_neg hnil, readLine, hword, Eff.bind_of_ok (Eff.ofExcept_apply _ _)]
  dsimp only
  rw [if_pos rfl]
  exact hrun

end

end Lines

end InitDataFileReader

end Taco
