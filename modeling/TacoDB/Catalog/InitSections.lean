import TacoDB.Catalog.InitData
import TacoDB.Catalog.LayoutFrame
import TacoDB.Catalog.ReaderTotal

/-!
# The sections of an init data file

What an init data file says, line by line: a table line begins the section of a table, and a
data line adds a row to the last section, with the values that the input functions of its
columns give for the tokens. `InitDataFileReader::next` goes through the lines of the file in
this way for as long as it returns neither an error nor the end.
-/

namespace Taco

open Schema

def linesFrom : ByteString → ByteString → List ByteString
  | line, [] => if line = [] then [] else [line]
  | line, b :: rest =>
    if b = charNewline then line :: linesFrom [] rest else linesFrom (line ++ [b]) rest

/-- The lines of a file. There is none behind the last newline. -/
def fileLines (text : ByteString) : List ByteString := linesFrom [] text

/-- What the lines of a section say: its table, the schema of its rows and their values. -/
structure InitSection where
  tabid : Nat
  schema : Schema
  rows : List (List Datum)

def InitSection.addRow (sec : InitSection) (row : List Datum) : InitSection :=
  { sec with rows := sec.rows ++ [row] }

namespace InitDataFileReader

section

variable (num : Numbers) (builtin : BuiltinTable)

def inputValue (s : Schema) (i : Nat) (token : ByteString) : Option Datum :=
  match findBootstrapType (s.getFieldTypeId i) with
  | none => none
  | some typ =>
    match functionCall (builtin typ.typinfunc) [Datum.fromVarlenBytes token]
      (s.getFieldTypeParam i) with
    | .error _ => none
    | .ok d => if d.isnull then none else some d

def inputValues (s : Schema) : Nat → List ByteString → Option (List Datum)
  | _, [] => some []
  | i, token :: tokens => do
      let d ← inputValue builtin s i token
      let values ← inputValues s (i + 1) tokens
      return d :: values

def columnNumbers : List ByteString → Option (List Nat × List Nat)
  | [] => some ([], [])
  | [_] => none
  | typid :: typparam :: tokens => do
      let oid ← num.simpleAtoi ⟨false, 32⟩ typid
      let param ← num.simpleAtoi ⟨false, 64⟩ typparam
      let (typids, typparams) ← columnNumbers tokens
      return (oid.toNat :: typids, param.toNat :: typparams)

def tableSchema (typid typparam : List Nat) : Option Schema := do
  let s ← Schema.create typid typparam (List.replicate typid.length false)
  let s ← (computeLayout builtin s).toOption
  if s.isLayoutComputed ∧ ∀ oid ∈ typid, (findBootstrapType oid).isSome then return s else none

def tableLine : List ByteString → Option InitSection
  | [] => none
  | tabid :: tokens => do
      let tabid ← num.simpleAtoi ⟨false, 32⟩ tabid
      let (typid, typparam) ← columnNumbers num tokens
      let schema ← tableSchema builtin typid typparam
      return { tabid := tabid.toNat, schema, rows := [] }

def dataRow (s : Schema) (tokens : List ByteString) : Option (List Datum) := do
  let values ← inputValues builtin s 0 tokens
  if (values.length : Int) = s.getNumFields then return values else none

/-- The sections after one more line, the last one first. -/
def addLine (secs : List InitSection) (line : ByteString) : Option (List InitSection) :=
  match tokens line with
  | .ok (some (word :: tokens)) =>
    if word = ascii "data" then
      match secs with
      | [] => none
      | sec :: secs =>
        (dataRow builtin sec.schema tokens).map fun row => sec.addRow row :: secs
    else if word = ascii "table" then (tableLine num builtin tokens).map (· :: secs)
    else none
  | _ => none

/-- The sections of a file, the last one first. -/
def initSections (text : ByteString) : Option (List InitSection) :=
  (fileLines text).foldlM (addLine num builtin) []

end

end InitDataFileReader

section Lines

theorem linesFrom_of_not_mem {rest : ByteString} (h : charNewline ∉ rest) (line : ByteString) :
    linesFrom line rest = if line ++ rest = [] then [] else [line ++ rest] := by
  induction rest generalizing line with
  | nil => rw [linesFrom, List.append_nil]
  | cons b rest ih =>
      have hb : b ≠ charNewline := fun heq => h (heq ▸ List.mem_cons_self)
      rw [linesFrom, if_neg hb, ih (fun hmem => h (List.mem_cons_of_mem b hmem)), List.append_assoc]
      rfl

theorem linesFrom_append {first : ByteString} (h : charNewline ∉ first)
    (line rest : ByteString) :
    linesFrom line (first ++ charNewline :: rest) = (line ++ first) :: linesFrom [] rest := by
  induction first generalizing line with
  | nil => rw [List.nil_append, linesFrom, if_pos rfl, List.append_nil]
  | cons b first ih =>
      have hb : b ≠ charNewline := fun heq => h (heq ▸ List.mem_cons_self)
      rw [List.cons_append, linesFrom, if_neg hb, ih (fun hmem => h (List.mem_cons_of_mem b hmem)),
        List.append_assoc]
      rfl

theorem length_linesFrom (line rest : ByteString) :
    (linesFrom line rest).length ≤ rest.length + if line = [] then 0 else 1 := by
  induction rest generalizing line with
  | nil =>
      rw [linesFrom]
      split
      · exact Nat.zero_le _
      · exact Nat.le_refl _
  | cons b rest ih =>
      rw [linesFrom, List.length_cons]
      split
      · have := ih []
        rw [if_pos rfl] at this
        rw [List.length_cons]
        omega
      · have := ih (line ++ [b])
        rw [if_neg (by simp)] at this
        omega

theorem length_fileLines (text : ByteString) : (fileLines text).length ≤ text.length := by
  have := length_linesFrom [] text
  rwa [if_pos rfl] at this

def FileStream.ofText (text : ByteString) : FileStream :=
  { opened := true, eof := false, rest := text }

def FileStream.pending (input : FileStream) : List ByteString :=
  if input.eof then [] else fileLines input.rest

/-- A stream returns the first line that has not been read, if there is one. -/
theorem getline_cases {input : FileStream} (hopen : input.opened = true) :
    (input.pending = [] ∧ input.getline.1 = [] ∧ input.getline.2.eof = true) ∨
      (input.pending = input.getline.1 :: input.getline.2.pending ∧
        input.getline.2.opened = true ∧ (input.getline.1 = [] → input.getline.2.eof = false)) := by
  obtain ⟨opened, eof, rest⟩ := input
  dsimp only at hopen
  subst hopen
  cases eof with
  | true => exact Or.inl ⟨rfl, rfl, rfl⟩
  | false =>
      by_cases hmem : charNewline ∈ rest
      · obtain ⟨first, rest, rfl, hfirst⟩ := List.eq_append_cons_of_mem hmem
        have hne : ∀ b ∈ first, decide (b ≠ charNewline) = true := fun b hb =>
          decide_eq_true fun heq => hfirst (heq ▸ hb)
        have hline : FileStream.getline ⟨true, false, first ++ charNewline :: rest⟩ =
            (first, ⟨true, false, rest⟩) := by
          rw [FileStream.getline, if_neg (by simp)]
          dsimp only
          rw [List.dropWhile_append_of_pos hne, List.dropWhile_cons_of_neg (by decide),
            List.takeWhile_append_of_pos hne, List.takeWhile_cons_of_neg (by decide),
            List.append_nil]
        rw [hline]
        exact Or.inr ⟨linesFrom_append hfirst [] rest, rfl, fun _ => rfl⟩
      · have hne : ∀ b ∈ rest, decide (b ≠ charNewline) = true := fun b hb =>
          decide_eq_true fun heq => hmem (heq ▸ hb)
        have hline : FileStream.getline ⟨true, false, rest⟩ = (rest, ⟨true, true, []⟩) := by
          rw [FileStream.getline, if_neg (by simp)]
          dsimp only
          have hnil : rest.dropWhile (· ≠ charNewline) = [] := by
            rw [← List.append_nil rest, List.dropWhile_append_of_pos hne, List.dropWhile_nil]
          rw [hnil]
        have hpending : FileStream.pending ⟨true, false, rest⟩ = if rest = [] then [] else [rest] :=
          linesFrom_of_not_mem hmem []
        rw [hline, hpending]
        by_cases hnil : rest = []
        · rw [if_pos hnil]
          exact Or.inl ⟨rfl, hnil, rfl⟩
        · rw [if_neg hnil]
          exact Or.inr ⟨rfl, rfl, fun h => absurd h hnil⟩

end Lines

namespace InitDataFileReader

section Values

variable {num : Numbers} {others : BuiltinTable} {r r' : InitDataFileReader} {s : Schema}
  {line : ByteString}

def InfuncsOf (builtin : BuiltinTable) (r : InitDataFileReader) : Prop :=
  ∀ oid finfo, r.typInfuncs oid = some finfo →
    ∃ typ, findBootstrapType oid = some typ ∧ finfo = builtin typ.typinfunc

/-- The input functions of the types that were entered, those of the fields of a schema
among them. -/
structure Entered (builtin : BuiltinTable) (r : InitDataFileReader) (s : Schema) : Prop where
  infuncs : InfuncsOf builtin r
  nonneg : 0 ≤ s.getNumFields
  fields : ∀ i : Nat, (i : Int) < s.getNumFields →
    (r.typInfuncs (s.getFieldTypeId i)).isSome = true

theorem InfuncsOf.congr {builtin : BuiltinTable} (h : InfuncsOf builtin r)
    (hfuncs : r'.typInfuncs = r.typInfuncs) : InfuncsOf builtin r' := by
  rw [InfuncsOf, hfuncs]
  exact h

theorem Entered.congr {builtin : BuiltinTable} (h : Entered builtin r s)
    (hfuncs : r'.typInfuncs = r.typInfuncs) : Entered builtin r' s :=
  ⟨h.infuncs.congr hfuncs, h.nonneg, fun i hi => hfuncs ▸ h.fields i hi⟩

theorem readValue_entered (h : Entered (findBuiltinFunction num others) r s) {i : Nat}
    (hi : (i : Int) < s.getNumFields) (token : ByteString) :
    ∃ typ, findBootstrapType (s.getFieldTypeId i) = some typ ∧
      readValue s i token r = (functionCall (findBuiltinFunction num others typ.typinfunc)
        [Datum.fromVarlenBytes token] (s.getFieldTypeParam i), r) := by
  obtain ⟨finfo, hfinfo⟩ := Option.isSome_iff_exists.mp (h.fields i hi)
  obtain ⟨typ, htyp, rfl⟩ := h.infuncs _ _ hfinfo
  obtain ⟨f, hf, -⟩ := infunc_bootstrap num others (findBootstrapType_some htyp).1
  have hfunc : infunc (s.getFieldTypeId i) r =
      (.ok (findBuiltinFunction num others typ.typinfunc), r) := by
    rw [infunc, Eff.bind_of_ok (Eff.getState_apply r), hfinfo]
    rfl
  refine ⟨typ, htyp, ?_⟩
  rw [readValue, Eff.bind_of_ok hfunc, hf]
  rfl

theorem readValues_end (n : Nat) (data : List Datum) :
    readValues line n line.length data r = (.ok (some data), r) := by
  cases n <;> rw [readValues, if_pos rfl] <;> rfl

theorem tokensFrom_end (n : Nat) : tokensFrom line n line.length = .ok (some []) := by
  cases n <;> rw [tokensFrom, if_pos rfl]

theorem tokensFrom_succ {n pos : Nat} (hend : pos ≠ line.length) {token : ByteString} {pos' : Nat}
    (htok : findNextToken line pos = .ok (some (token, pos'))) {toks : List ByteString} :
    tokensFrom line (n + 1) pos = .ok (some toks) ↔
      ∃ rest, tokensFrom line n pos' = .ok (some rest) ∧ toks = token :: rest := by
  rw [tokensFrom, if_neg hend, htok, Eff.ok_bind]
  dsimp only
  constructor
  · intro h
    obtain ⟨rest?, hrest, hmap⟩ := Eff.except_bind_eq_ok_iff.mp h
    obtain ⟨rest, rfl, heq⟩ := Option.map_eq_some_iff.mp (Except.ok.inj hmap)
    exact ⟨rest, hrest, heq.symm⟩
  · rintro ⟨rest, hrest, rfl⟩
    exact Eff.except_bind_eq_ok_iff.mpr ⟨some rest, hrest, rfl⟩

theorem inputValues_cons {builtin : BuiltinTable} {i : Nat} {token : ByteString}
    {toks : List ByteString} {values : List Datum} :
    inputValues builtin s i (token :: toks) = some values ↔
      ∃ d rest, inputValue builtin s i token = some d ∧
        inputValues builtin s (i + 1) toks = some rest ∧ values = d :: rest := by
  rw [inputValues]
  constructor
  · intro h
    obtain ⟨d, hd, h⟩ := Option.bind_eq_some_iff.mp h
    obtain ⟨rest, hrest, h⟩ := Option.bind_eq_some_iff.mp h
    exact ⟨d, rest, hd, hrest, (Option.some.inj h).symm⟩
  · rintro ⟨d, rest, hd, hrest, rfl⟩
    exact Option.bind_eq_some_iff.mpr ⟨d, hd, Option.bind_eq_some_iff.mpr ⟨rest, hrest, rfl⟩⟩

/-- What `readValues` reads from `pos` on behind the values `data`. -/
def ValuesFrom (builtin : BuiltinTable) (s : Schema) (line : ByteString) (n pos : Nat)
    (data values : List Datum) : Prop :=
  ∃ toks rest, tokensFrom line n pos = .ok (some toks) ∧
    inputValues builtin s data.length toks = some rest ∧
    (values.length : Int) ≤ s.getNumFields ∧ values = data ++ rest

theorem valuesFrom_end {builtin : BuiltinTable} {n : Nat} {data values : List Datum}
    (hdata : (data.length : Int) ≤ s.getNumFields) :
    ValuesFrom builtin s line n line.length data values ↔ values = data := by
  constructor
  · rintro ⟨toks, rest, htoks, hrest, -, rfl⟩
    rw [tokensFrom_end] at htoks
    cases htoks
    cases hrest
    exact List.append_nil data
  · rintro rfl
    exact ⟨[], [], tokensFrom_end n, rfl, hdata, (List.append_nil values).symm⟩

theorem valuesFrom_succ {builtin : BuiltinTable} {n pos : Nat} (hend : pos ≠ line.length)
    {token : ByteString} {pos' : Nat} (htok : findNextToken line pos = .ok (some (token, pos')))
    {data values : List Datum} :
    ValuesFrom builtin s line (n + 1) pos data values ↔
      ∃ d, inputValue builtin s data.length token = some d ∧
        ValuesFrom builtin s line n pos' (data ++ [d]) values := by
  constructor
  · rintro ⟨toks, rest, htoks, hrest, hlen, rfl⟩
    obtain ⟨toks', htoks', rfl⟩ := (tokensFrom_succ hend htok).mp htoks
    obtain ⟨d, rest', hd, hrest', rfl⟩ := inputValues_cons.mp hrest
    refine ⟨d, hd, toks', rest', htoks', ?_, hlen, by rw [List.append_assoc]; rfl⟩
    rwa [List.length_append]
  · rintro ⟨d, hd, toks, rest, htoks, hrest, hlen, rfl⟩
    rw [List.length_append] at hrest
    refine ⟨token :: toks, d :: rest, (tokensFrom_succ hend htok).mpr ⟨toks, htoks, rfl⟩,
      inputValues_cons.mpr ⟨d, rest, hd, hrest, rfl⟩, hlen, by rw [List.append_assoc]; rfl⟩

theorem ValuesFrom.length_le {builtin : BuiltinTable} {n pos : Nat} {data values : List Datum}
    (h : ValuesFrom builtin s line n pos data values) :
    (data.length : Int) ≤ s.getNumFields := by
  obtain ⟨toks, rest, -, -, hlen, rfl⟩ := h
  rw [List.length_append] at hlen
  omega

theorem readValues_iff_end {builtin : BuiltinTable} {n : Nat} {data values : List Datum}
    (hdata : (data.length : Int) ≤ s.getNumFields) :
    readValues line n line.length data r = (.ok (some values), r') ↔
      r' = r ∧ ValuesFrom builtin s line n line.length data values := by
  rw [readValues_end, valuesFrom_end hdata]
  constructor
  · rintro ⟨⟩
    exact ⟨rfl, rfl⟩
  · rintro ⟨rfl, rfl⟩
    rfl

theorem not_valuesFrom {builtin : BuiltinTable} {n pos : Nat} {data values : List Datum}
    (hend : pos ≠ line.length)
    (htok : ∀ token pos', findNextToken line pos ≠ .ok (some (token, pos'))) :
    ¬ ValuesFrom builtin s line (n + 1) pos data values := by
  rintro ⟨toks, rest, htoks, -⟩
  rw [tokensFrom, if_neg hend] at htoks
  rcases hnext : findNextToken line pos with e | _ | ⟨token, pos'⟩
  · rw [hnext] at htoks
    cases htoks
  · rw [hnext] at htoks
    cases htoks
  · exact htok token pos' hnext

theorem readValues_noToken (hs : r.schema = some s) {n pos : Nat} {data values : List Datum}
    (hend : pos ≠ line.length)
    (htok : ∀ token pos', findNextToken line pos ≠ .ok (some (token, pos'))) :
    readValues line (n + 1) pos data r ≠ (.ok (some values), r') := by
  intro hrun
  rw [readValues, if_neg hend, Eff.bind_of_ok (Eff.getState_apply r), hs] at hrun
  dsimp only at hrun
  split at hrun
  · cases hrun
  · rcases hnext : findNextToken line pos with e | _ | ⟨token, pos'⟩
    · rw [hnext] at hrun
      cases hrun
    · rw [hnext] at hrun
      cases hrun
    · exact htok token pos' hnext

theorem readValues_full (hs : r.schema = some s) {n pos : Nat} {data values : List Datum}
    (hend : pos ≠ line.length) (hfull : (data.length : Int) = s.getNumFields) :
    readValues line (n + 1) pos data r ≠ (.ok (some values), r') := by
  intro hrun
  rw [readValues, if_neg hend, Eff.bind_of_ok (Eff.getState_apply r), hs] at hrun
  dsimp only at hrun
  rw [if_pos hfull] at hrun
  cases hrun

/-- The loop goes on behind a token exactly when the input function of the field accepts it. -/
theorem readValues_token (h : Entered (findBuiltinFunction num others) r s)
    (hs : r.schema = some s) {n pos : Nat} {data values : List Datum} (hend : pos ≠ line.length)
    (hlt : (data.length : Int) < s.getNumFields) {token : ByteString} {pos' : Nat}
    (htok : findNextToken line pos = .ok (some (token, pos'))) :
    readValues line (n + 1) pos data r = (.ok (some values), r') ↔
      ∃ d, inputValue (findBuiltinFunction num others) s data.length token = some d ∧
        readValues line n pos' (data ++ [d]) r = (.ok (some values), r') := by
  rw [readValues, if_neg hend, Eff.bind_of_ok (Eff.getState_apply r), hs]
  dsimp only
  rw [htok, if_neg (by omega), Eff.bind_of_ok (Eff.ofExcept_apply _ r)]
  dsimp only
  obtain ⟨typ, htyp, hvalue⟩ := readValue_entered h hlt token
  rw [Eff.bind_apply, hvalue, inputValue, htyp]
  dsimp only
  cases hcall : functionCall (findBuiltinFunction num others typ.typinfunc)
    [Datum.fromVarlenBytes token] (s.getFieldTypeParam data.length) with
  | error e =>
      constructor
      · rintro ⟨⟩
      · rintro ⟨d, ⟨⟩, -⟩
  | ok d =>
      dsimp only
      cases hnull : d.isnull with
      | true =>
          rw [if_pos rfl, if_pos rfl]
          constructor
          · rintro ⟨⟩
          · rintro ⟨d', ⟨⟩, -⟩
      | false =>
          rw [if_neg Bool.false_ne_true, if_neg Bool.false_ne_true]
          constructor
          · intro hrest
            exact ⟨d, rfl, hrest⟩
          · rintro ⟨d', hd, hrest⟩
            cases hd
            exact hrest

/-- The loop over the values comes to the end of the line exactly when the input functions
accept its tokens, and there are not more of them than fields. -/
theorem readValues_iff (h : Entered (findBuiltinFunction num others) r s)
    (hs : r.schema = some s) {n pos : Nat} {data values : List Datum}
    (hdata : (data.length : Int) ≤ s.getNumFields) :
    readValues line n pos data r = (.ok (some values), r') ↔
      r' = r ∧ ValuesFrom (findBuiltinFunction num others) s line n pos data values := by
  induction n generalizing pos data with
  | zero =>
      by_cases hend : pos = line.length
      · subst hend
        exact readValues_iff_end hdata
      rw [readValues, if_neg hend]
      constructor
      · rintro ⟨⟩
      · rintro ⟨-, toks, rest, htoks, -⟩
        rw [tokensFrom, if_neg hend] at htoks
        cases htoks
  | succ n ih =>
      by_cases hend : pos = line.length
      · subst hend
        exact readValues_iff_end hdata
      by_cases htok : ∃ token pos', findNextToken line pos = .ok (some (token, pos'))
      · obtain ⟨token, pos', htok⟩ := htok
        rw [valuesFrom_succ hend htok]
        by_cases hfull : (data.length : Int) = s.getNumFields
        · refine ⟨fun hrun => absurd hrun (readValues_full hs hend hfull), ?_⟩
          rintro ⟨-, d, -, hval⟩
          have hle := hval.length_le
          rw [List.length_append, List.length_singleton] at hle
          omega
        have hle : ∀ d : Datum, ((data ++ [d]).length : Int) ≤ s.getNumFields := fun d => by
          rw [List.length_append, List.length_singleton]
          omega
        rw [readValues_token h hs hend (by omega) htok]
        constructor
        · rintro ⟨d, hd, hrest⟩
          obtain ⟨rfl, hval⟩ := (ih (hle d)).mp hrest
          exact ⟨rfl, d, hd, hval⟩
        · rintro ⟨rfl, d, hd, hval⟩
          exact ⟨d, hd, (ih (hle d)).mpr ⟨rfl, hval⟩⟩
      · push Not at htok
        exact ⟨fun hrun => absurd hrun (readValues_noToken hs hend htok),
          fun hval => absurd hval.2 (not_valuesFrom hend htok)⟩

/-- A data line is read exactly when its tokens make a row that has a payload. -/
theorem readData_iff (h : Entered (findBuiltinFunction num others) r s)
    (hs : r.schema = some s) {pos : Nat} :
    readData line pos r = (.ok .data, r') ↔
      ∃ toks values len buf, tokensFrom line line.length pos = .ok (some toks) ∧
        dataRow (findBuiltinFunction num others) s toks = some values ∧
        s.writePayloadToBuffer values [] = (.ok len, buf) ∧ len ≠ -1 ∧
        r' = { r with buf, lastState := .data } := by
  have hwrite : ∀ {values res buf}, s.writePayloadToBuffer values [] = (res, buf) →
      writeRow s values r = (res, { r with buf }) := by
    intro values res buf hpayload
    rw [writeRow, hpayload, Eff.bind_of_ok (Eff.modifyState_apply _ _), Eff.ofExcept_apply]
  have hnil : (([] : List Datum).length : Int) ≤ s.getNumFields := by
    rw [List.length_nil]
    exact h.nonneg
  constructor
  · intro hrun
    obtain ⟨out, r₁, hvalues, hrest⟩ := Eff.bind_eq_ok_iff.mp hrun
    rcases out with _ | values
    · cases (Eff.ok_inj hrest).1
    obtain ⟨rfl, toks, rest, htoks, hinput, -, hrest'⟩ :=
      (readValues_iff h hs hnil).mp hvalues
    rw [List.nil_append] at hrest'
    subst hrest'
    dsimp only at hrest
    rw [Eff.bind_of_ok (Eff.getState_apply r₁), hs] at hrest
    dsimp only at hrest
    split at hrest
    · cases (Eff.ok_inj hrest).1
    rename_i hlen
    rw [not_not] at hlen
    obtain ⟨len, r₂, hlen', hfin⟩ := Eff.bind_eq_ok_iff.mp hrest
    rcases hpayload : s.writePayloadToBuffer values [] with ⟨res, buf⟩
    rw [hwrite hpayload] at hlen'
    obtain ⟨rfl, rfl⟩ := Prod.mk.inj hlen'
    split at hfin
    · cases (Eff.ok_inj hfin).1
    rename_i hne
    refine ⟨toks, values, len, buf, htoks, ?_, hpayload, hne, (Eff.ok_inj hfin).2.symm⟩
    exact Option.bind_eq_some_iff.mpr ⟨values, hinput, if_pos hlen⟩
  · rintro ⟨toks, values, len, buf, htoks, hrow, hpayload, hne, rfl⟩
    obtain ⟨rest, hinput, hif⟩ := Option.bind_eq_some_iff.mp hrow
    split at hif
    · rename_i hlen
      obtain rfl := Option.some.inj hif
      have hvalues : readValues line line.length pos [] r = (.ok (some rest), r) :=
        (readValues_iff h hs hnil).mpr ⟨rfl, toks, rest, htoks, hinput, le_of_eq hlen, rfl⟩
      rw [readData, Eff.bind_of_ok hvalues]
      dsimp only
      rw [Eff.bind_of_ok (Eff.getState_apply r), hs]
      dsimp only
      rw [if_neg (not_not_intro hlen), Eff.bind_of_ok (hwrite hpayload), if_neg hne,
        ← hs]
      rfl
    · cases hif

end Values

section Columns

variable {num : Numbers} {line : ByteString}

/-- The number of iterations does not matter when it is large enough. -/
theorem tokensFrom_fuel {n m pos : Nat} (hpos : pos ≤ line.length) (hn : line.length ≤ pos + n)
    (hm : line.length ≤ pos + m) : tokensFrom line n pos = tokensFrom line m pos := by
  induction n generalizing m pos with
  | zero =>
      have hend : pos = line.length := by omega
      rw [hend, tokensFrom_end, tokensFrom_end]
  | succ n ih =>
      by_cases hend : pos = line.length
      · rw [hend, tokensFrom_end, tokensFrom_end]
      obtain ⟨m, rfl⟩ : ∃ k, m = k + 1 := ⟨m - 1, by omega⟩
      rw [tokensFrom, tokensFrom, if_neg hend, if_neg hend]
      cases htok : findNextToken line pos with
      | error e => rfl
      | ok tok =>
          rcases tok with _ | ⟨token, pos'⟩
          · rfl
          have hlt := findNextToken_progress htok
          rw [Eff.ok_bind, Eff.ok_bind]
          dsimp only
          rw [ih (m := m) hlt.2 (by omega) (by omega)]

theorem readNumber_iff {t : IntType} {pos x pos' : Nat} :
    readNumber num t line pos = .ok (some (x, pos')) ↔
      ∃ token v, findNextToken line pos = .ok (some (token, pos')) ∧
        num.simpleAtoi t token = some v ∧ x = v.toNat := by
  rw [readNumber]
  cases htok : findNextToken line pos with
  | error e =>
      constructor
      · rintro ⟨⟩
      · rintro ⟨token, v, ⟨⟩, -⟩
  | ok tok =>
      rw [Eff.ok_bind]
      rcases tok with _ | ⟨token, pos₁⟩
      · constructor
        · rintro ⟨⟩
        · rintro ⟨token, v, ⟨⟩, -⟩
      constructor
      · intro h
        obtain ⟨v, hv, heq⟩ := Option.map_eq_some_iff.mp (Except.ok.inj h)
        obtain ⟨rfl, rfl⟩ := Prod.mk.inj heq
        exact ⟨token, v, rfl, hv, rfl⟩
      · rintro ⟨token', v, htok', hv, rfl⟩
        cases htok'
        exact congrArg Except.ok (Option.map_eq_some_iff.mpr ⟨v, hv, rfl⟩)

theorem columnNumbers_cons {typid typparam : ByteString} {toks : List ByteString}
    {typids typparams : List Nat} :
    columnNumbers num (typid :: typparam :: toks) = some (typids, typparams) ↔
      ∃ oid param ts ps, num.simpleAtoi ⟨false, 32⟩ typid = some oid ∧
        num.simpleAtoi ⟨false, 64⟩ typparam = some param ∧
        columnNumbers num toks = some (ts, ps) ∧ typids = oid.toNat :: ts ∧
        typparams = param.toNat :: ps := by
  rw [columnNumbers]
  constructor
  · intro h
    obtain ⟨oid, hoid, h⟩ := Option.bind_eq_some_iff.mp h
    obtain ⟨param, hparam, h⟩ := Option.bind_eq_some_iff.mp h
    obtain ⟨⟨ts, ps⟩, hrest, h⟩ := Option.bind_eq_some_iff.mp h
    obtain ⟨rfl, rfl⟩ := Prod.mk.inj (Option.some.inj h)
    exact ⟨oid, param, ts, ps, hoid, hparam, hrest, rfl, rfl⟩
  · rintro ⟨oid, param, ts, ps, hoid, hparam, hrest, rfl, rfl⟩
    rw [hoid, hparam, hrest]
    rfl

theorem readColumns_end (n : Nat) (typid typparam : List Nat) :
    readColumns num line n line.length typid typparam = .ok (some (typid, typparam)) := by
  cases n <;> rw [readColumns, if_pos rfl]

/-- What the loop over the columns reads from `pos` on behind these types and parameters. -/
def ColumnsFrom (num : Numbers) (line : ByteString) (n pos : Nat)
    (typid typparam typids typparams : List Nat) : Prop :=
  ∃ toks ts ps, tokensFrom line n pos = .ok (some toks) ∧ columnNumbers num toks = some (ts, ps) ∧
    typids = typid ++ ts ∧ typparams = typparam ++ ps

theorem columnsFrom_end {n : Nat} {typid typparam typids typparams : List Nat} :
    ColumnsFrom num line n line.length typid typparam typids typparams ↔
      typids = typid ∧ typparams = typparam := by
  constructor
  · rintro ⟨toks, ts, ps, htoks, hcols, rfl, rfl⟩
    rw [tokensFrom_end] at htoks
    cases htoks
    cases hcols
    exact ⟨List.append_nil typid, List.append_nil typparam⟩
  · rintro ⟨rfl, rfl⟩
    exact ⟨[], [], [], tokensFrom_end n, rfl, (List.append_nil _).symm, (List.append_nil _).symm⟩

theorem findNextToken_end {x : ByteString × Nat} :
    findNextToken line line.length ≠ .ok (some x) := by
  intro h
  obtain ⟨token, pos⟩ := x
  have := findNextToken_progress h
  omega

theorem columnsFrom_step {n pos pos₁ pos₂ oid param : Nat} (hend : pos ≠ line.length)
    (hn : line.length ≤ pos + (n + 1))
    (hx : readNumber num ⟨false, 32⟩ line pos = .ok (some (oid, pos₁)))
    (hy : readNumber num ⟨false, 64⟩ line pos₁ = .ok (some (param, pos₂)))
    {typid typparam typids typparams : List Nat} :
    ColumnsFrom num line (n + 1) pos typid typparam typids typparams ↔
      ColumnsFrom num line n pos₂ (typid ++ [oid]) (typparam ++ [param]) typids typparams := by
  obtain ⟨tok, v, htok, hv, rfl⟩ := readNumber_iff.mp hx
  obtain ⟨tok', v', htok', hv', rfl⟩ := readNumber_iff.mp hy
  have hlt := findNextToken_progress htok
  have hlt' := findNextToken_progress htok'
  have hend₁ : pos₁ ≠ line.length := by omega
  obtain ⟨n, rfl⟩ : ∃ k, n = k + 1 := ⟨n - 1, by omega⟩
  have hfuel : tokensFrom line n pos₂ = tokensFrom line (n + 1) pos₂ :=
    tokensFrom_fuel hlt'.2 (by omega) (by omega)
  constructor
  · rintro ⟨toks, ts, ps, htoks, hcols, rfl, rfl⟩
    obtain ⟨toks₁, htoks₁, rfl⟩ := (tokensFrom_succ hend htok).mp htoks
    obtain ⟨toks₂, htoks₂, rfl⟩ := (tokensFrom_succ hend₁ htok').mp htoks₁
    obtain ⟨oid, param, ts', ps', hoid, hparam, hrest, rfl, rfl⟩ := columnNumbers_cons.mp hcols
    rw [hv] at hoid
    rw [hv'] at hparam
    cases hoid
    cases hparam
    rw [hfuel] at htoks₂
    exact ⟨toks₂, ts', ps', htoks₂, hrest, by rw [List.append_assoc]; rfl,
      by rw [List.append_assoc]; rfl⟩
  · rintro ⟨toks, ts, ps, htoks, hcols, rfl, rfl⟩
    rw [← hfuel] at htoks
    have htoks₁ := (tokensFrom_succ hend₁ htok').mpr ⟨toks, htoks, rfl⟩
    exact ⟨tok :: tok' :: toks, v.toNat :: ts, v'.toNat :: ps,
      (tokensFrom_succ hend htok).mpr ⟨_, htoks₁, rfl⟩,
      columnNumbers_cons.mpr ⟨v, v', ts, ps, hv, hv', hcols, rfl, rfl⟩,
      by rw [List.append_assoc]; rfl, by rw [List.append_assoc]; rfl⟩

theorem ColumnsFrom.numbers {n pos : Nat} (hend : pos ≠ line.length)
    {typid typparam typids typparams : List Nat}
    (h : ColumnsFrom num line (n + 1) pos typid typparam typids typparams) :
    ∃ oid pos₁ param pos₂, readNumber num ⟨false, 32⟩ line pos = .ok (some (oid, pos₁)) ∧
      readNumber num ⟨false, 64⟩ line pos₁ = .ok (some (param, pos₂)) := by
  obtain ⟨toks, ts, ps, htoks, hcols, -, -⟩ := h
  have hfirst : ∃ tok pos₁, findNextToken line pos = .ok (some (tok, pos₁)) := by
    rw [tokensFrom, if_neg hend] at htoks
    obtain ⟨out, hout, hrest⟩ := Eff.except_bind_eq_ok_iff.mp htoks
    rcases out with _ | ⟨tok, pos₁⟩
    · cases hrest
    · exact ⟨tok, pos₁, hout⟩
  obtain ⟨tok, pos₁, htok⟩ := hfirst
  obtain ⟨toks₁, htoks₁, rfl⟩ := (tokensFrom_succ hend htok).mp htoks
  cases toks₁ with
  | nil => cases hcols
  | cons tok' toks₂ =>
      obtain ⟨oid, param, -, -, hoid, hparam, -⟩ := columnNumbers_cons.mp hcols
      have hend₁ : pos₁ ≠ line.length := by
        rintro rfl
        rw [tokensFrom_end] at htoks₁
        cases htoks₁
      obtain ⟨m, pos₂, -, htok'⟩ := findNextToken_of_tokensFrom htoks₁
      exact ⟨oid.toNat, pos₁, param.toNat, pos₂,
        readNumber_iff.mpr ⟨tok, oid, htok, hoid, rfl⟩,
        readNumber_iff.mpr ⟨tok', param, htok', hparam, rfl⟩⟩

/-- The loop over the columns comes to the end of the line exactly when its tokens are the
numbers of columns. -/
theorem readColumns_iff {n pos : Nat} (hpos : pos ≤ line.length) (hn : line.length ≤ pos + n)
    {typid typparam typids typparams : List Nat} :
    readColumns num line n pos typid typparam = .ok (some (typids, typparams)) ↔
      ColumnsFrom num line n pos typid typparam typids typparams := by
  induction n generalizing pos typid typparam with
  | zero =>
      have hend : pos = line.length := by omega
      rw [hend, readColumns_end, columnsFrom_end]
      constructor
      · rintro ⟨⟩
        exact ⟨rfl, rfl⟩
      · rintro ⟨rfl, rfl⟩
        rfl
  | succ n ih =>
      by_cases hend : pos = line.length
      · rw [hend, readColumns_end, columnsFrom_end]
        constructor
        · rintro ⟨⟩
          exact ⟨rfl, rfl⟩
        · rintro ⟨rfl, rfl⟩
          rfl
      have hrun : ∀ {oid pos₁ param pos₂},
          readNumber num ⟨false, 32⟩ line pos = .ok (some (oid, pos₁)) →
            readNumber num ⟨false, 64⟩ line pos₁ = .ok (some (param, pos₂)) →
              readColumns num line (n + 1) pos typid typparam =
                readColumns num line n pos₂ (typid ++ [oid]) (typparam ++ [param]) := by
        intro oid pos₁ param pos₂ hx hy
        rw [readColumns, if_neg hend, hx, Eff.ok_bind]
        dsimp only
        rw [hy, Eff.ok_bind]
      constructor
      · intro h
        have hnumbers : ∃ oid pos₁ param pos₂,
            readNumber num ⟨false, 32⟩ line pos = .ok (some (oid, pos₁)) ∧
              readNumber num ⟨false, 64⟩ line pos₁ = .ok (some (param, pos₂)) := by
          rw [readColumns, if_neg hend] at h
          obtain ⟨x, hx, h⟩ := Eff.except_bind_eq_ok_iff.mp h
          rcases x with _ | ⟨oid, pos₁⟩
          · cases h
          obtain ⟨y, hy, h⟩ := Eff.except_bind_eq_ok_iff.mp h
          rcases y with _ | ⟨param, pos₂⟩
          · cases h
          exact ⟨oid, pos₁, param, pos₂, hx, hy⟩
        obtain ⟨oid, pos₁, param, pos₂, hx, hy⟩ := hnumbers
        have hlt := readNumber_progress hx
        have hlt' := readNumber_progress hy
        rw [hrun hx hy, ih hlt'.2 (by omega)] at h
        exact (columnsFrom_step hend hn hx hy).mpr h
      · intro h
        obtain ⟨oid, pos₁, param, pos₂, hx, hy⟩ := h.numbers hend
        have hlt := readNumber_progress hx
        have hlt' := readNumber_progress hy
        rw [hrun hx hy, ih hlt'.2 (by omega)]
        exact (columnsFrom_step hend hn hx hy).mp h

end Columns

end InitDataFileReader

end Taco
