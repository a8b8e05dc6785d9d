import TacoDB.Catalog.ReachedLookups

/-!
# What is added to the catalog

Which rows the catalog has after `AddTable` and `AddIndex`, whether they return or raise an
error, in all states that are reached. The row of the new table or index is inserted before the
rows of its columns, and it stays when one of those cannot be inserted.
-/

namespace Taco

open Eff Initoids CatCache Schema Run

namespace AddTableArgs

/-- The values that the types of the arguments have, and names that can be read back. -/
structure InRange (a : AddTableArgs) : Prop where
  typids : ∀ typid ∈ a.coltypid, typid < 2 ^ 32
  typparams : ∀ typparam ∈ a.coltypparam, typparam < 2 ^ 64
  fid : a.tabfid < 2 ^ 32
  tabname : a.tabname.length ≤ 32767
  names : ∀ name ∈ a.fieldNames, name.length ≤ 32767

def filled (a : AddTableArgs) : AddTableArgs :=
  let n := a.coltypid.length
  { a with
    coltypparam := if a.coltypparam = [] then List.replicate n 0 else a.coltypparam
    fieldNames :=
      if a.fieldNames = [] then (List.range n).map fun i => ascii ("col_" ++ toString i)
      else a.fieldNames
    colisnullable := if a.colisnullable = [] then List.replicate n true else a.colisnullable
    colisarray := if a.colisarray = [] then List.replicate n false else a.colisarray }

structure Covers (a : AddTableArgs) (n : Nat) : Prop where
  typparams : n ≤ a.coltypparam.length
  names : n ≤ a.fieldNames.length
  nullables : n ≤ a.colisnullable.length
  arrays : n ≤ a.colisarray.length

section

variable {α : Type} {a b : AddTableArgs} {what : String} {l l' dflt : List α} {n : Nat}

theorem checkedVector_ok (h : checkedVector what n (.ok dflt) l = .ok l')
    (hdflt : dflt.length = n) : l' = (if l = [] then dflt else l) ∧ n ≤ l'.length := by
  unfold checkedVector at h
  by_cases hnil : l = []
  · rw [if_pos hnil] at h ⊢
    cases h
    exact ⟨rfl, le_of_eq hdflt.symm⟩
  · rw [if_neg hnil] at h ⊢
    split at h
    · cases h
    · rename_i hsize
      cases h
      rw [ne_eq, not_not, toFieldOffset_eq] at hsize
      exact ⟨rfl, by omega⟩

theorem resizeDefault_nil (n : Nat) (x : α) :
    resizeDefault [] n x = .ok (List.replicate n x) := by
  rw [resizeDefault, if_neg (by omega), Buffer.resize]
  simp

theorem checkedVector_default {dflt : Except Failure (List α)} {dflt' : List α}
    (h : l = [] → dflt = .ok dflt') :
    checkedVector what n dflt l = checkedVector what n (.ok dflt') l := by
  unfold checkedVector
  by_cases hnil : l = []
  · rw [if_pos hnil, if_pos hnil, h hnil]
  · rw [if_neg hnil, if_neg hnil]

theorem checkSizes_frame (h : a.checkSizes = .ok b) :
    b.coltypid = a.coltypid ∧ b.tabname = a.tabname := by
  unfold checkSizes at h
  split at h
  · cases h
  split at h
  · cases h
  split at h
  · cases h
  dsimp only at h
  obtain ⟨typparams, -, h⟩ := except_bind_eq_ok_iff.mp h
  obtain ⟨names, -, h⟩ := except_bind_eq_ok_iff.mp h
  obtain ⟨nullables, -, h⟩ := except_bind_eq_ok_iff.mp h
  obtain ⟨arrays, -, h⟩ := except_bind_eq_ok_iff.mp h
  cases h
  exact ⟨rfl, rfl⟩

theorem checkSizes_ok (h : a.checkSizes = .ok b) (hnum : 0 ≤ a.numFields) :
    a.numFields = a.coltypid.length ∧ 0 < a.coltypid.length ∧ b = a.filled ∧
      b.Covers a.coltypid.length := by
  unfold checkSizes at h
  split at h
  · cases h
  split at h
  · cases h
  split at h
  · cases h
  rename_i hne hle
  have hlen : a.numFields = (a.coltypid.length : Int) := by
    unfold numFields at hnum ⊢
    rw [toFieldOffset_eq] at hnum ⊢
    omega
  dsimp only at h
  rw [hlen] at h
  obtain ⟨typparams, htypparams, h⟩ := except_bind_eq_ok_iff.mp h
  obtain ⟨names, hnames, h⟩ := except_bind_eq_ok_iff.mp h
  obtain ⟨nullables, hnullables, h⟩ := except_bind_eq_ok_iff.mp h
  obtain ⟨arrays, harrays, h⟩ := except_bind_eq_ok_iff.mp h
  rw [checkedVector_default fun hnil => hnil ▸ resizeDefault_nil _ 0] at htypparams
  rw [checkedVector_default fun hnil => hnil ▸ resizeDefault_nil _ true] at hnullables
  rw [checkedVector_default fun hnil => hnil ▸ resizeDefault_nil _ false] at harrays
  have hdefault : a.defaultNames.length = a.coltypid.length := by
    rw [defaultNames, hlen, Int.toNat_natCast, List.length_map, List.length_range]
  obtain ⟨rfl, htypparams⟩ := checkedVector_ok htypparams List.length_replicate
  obtain ⟨rfl, hnames⟩ := checkedVector_ok hnames hdefault
  obtain ⟨rfl, hnullables⟩ := checkedVector_ok hnullables List.length_replicate
  obtain ⟨rfl, harrays⟩ := checkedVector_ok harrays List.length_replicate
  cases h
  refine ⟨hlen, Nat.pos_of_ne_zero hne, ?_, ⟨htypparams, hnames, hnullables, harrays⟩⟩
  rw [filled, defaultNames, hlen, Int.toNat_natCast]

structure Sized (a : AddTableArgs) : Prop where
  fid : a.tabfid ≠ invalidFid
  ncols : 0 < a.coltypid.length ∧ a.coltypid.length ≤ 32767
  typparams : a.coltypparam = [] ∨ a.coltypparam.length = a.coltypid.length
  names : a.fieldNames = [] ∨ a.fieldNames.length = a.coltypid.length
  nullables : a.colisnullable = [] ∨ a.colisnullable.length = a.coltypid.length
  arrays : a.colisarray = [] ∨ a.colisarray.length = a.coltypid.length

theorem Sized.checkSizes {a : AddTableArgs} (h : a.Sized) : a.checkSizes = .ok a.filled := by
  obtain ⟨hpos, hle⟩ := h.ncols
  have hnum : a.numFields = a.coltypid.length := toFieldOffset_of_mem (by omega) (by omega)
  have hvector : ∀ {α : Type} (what : String) (dflt l : List α),
      l = [] ∨ l.length = a.coltypid.length →
      checkedVector what a.coltypid.length (.ok dflt) l = .ok (if l = [] then dflt else l) := by
    intro α what dflt l hl
    unfold checkedVector
    by_cases hnil : l = []
    · rw [if_pos hnil, if_pos hnil]
    · rw [if_neg hnil, if_neg hnil, hl.resolve_left hnil]
      exact if_neg (not_not_intro hnum)
  have hdefault : ∀ {α : Type} (l : List α) (x : α),
      l = [] → resizeDefault l a.coltypid.length x = .ok (List.replicate a.coltypid.length x) := by
    intro α l x hnil
    rw [hnil, resizeDefault_nil]
  unfold AddTableArgs.checkSizes
  rw [if_neg h.fid, if_neg (Nat.ne_of_gt hpos), if_neg (by omega)]
  dsimp only
  rw [hnum, checkedVector_default (hdefault _ 0), hvector _ _ _ h.typparams, ok_bind,
    hvector _ _ _ h.names, ok_bind, checkedVector_default (hdefault _ true),
    hvector _ _ _ h.nullables, ok_bind, checkedVector_default (hdefault _ false),
    hvector _ _ _ h.arrays, ok_bind, filled, defaultNames, hnum, Int.toNat_natCast]
  rfl

theorem Accepted.checked {c : Content} (h : a.Accepted b c) :
    a.numFields = a.coltypid.length ∧ 0 < a.coltypid.length ∧ b = a.filled ∧
      b.Covers a.coltypid.length := by
  have hnumber := h.number
  rw [numFields, (checkSizes_frame h.sizes).1] at hnumber
  exact checkSizes_ok h.sizes hnumber

end

section Rows

variable {a : AddTableArgs} {tabid i : Nat}

theorem getD_mem {α : Type} {p : α → Prop} {l : List α} {x : α} (h : ∀ y ∈ l, p y) (hx : p x)
    (i : Nat) : p (l.getD i x) := by
  rw [List.getD_eq_getElem?_getD]
  cases hi : l[i]? with
  | none => exact hx
  | some y => exact h y (List.mem_of_getElem? hi)

theorem InRange.filled (h : a.InRange) (hlen : a.coltypid.length ≤ 32767) : a.filled.InRange := by
  refine ⟨h.typids, fun p hp => ?_, h.fid, h.tabname, fun name hname => ?_⟩
  · change p ∈ (if a.coltypparam = [] then _ else a.coltypparam) at hp
    split at hp
    · rw [List.eq_of_mem_replicate hp]
      exact Nat.two_pow_pos 64
    · exact h.typparams p hp
  · change name ∈ (if a.fieldNames = [] then _ else a.fieldNames) at hname
    split at hname
    · obtain ⟨i, hi, rfl⟩ := List.mem_map.mp hname
      have hdigits := length_decimalText (x := i) (by omega) (by have := List.mem_range.mp hi; omega)
      have hint : ascii (toString (i : Int)) = ascii (toString i) := rfl
      rw [← ascii_toString, hint] at hdigits
      rw [ascii, String.toList_append, List.map_append, List.length_append]
      change 4 + (ascii (toString i)).length ≤ 32767
      omega
    · exact h.names name hname

theorem InRange.tableRow_stored (h : a.InRange) (htabid : tabid < 2 ^ 32) :
    (a.tableRow tabid).stored = a.tableRow tabid := by
  have hncols : toFieldOffset a.numFields = a.numFields := by
    have heq := toFieldOffset_eq a.coltypid.length
    exact toFieldOffset_of_mem (by rw [numFields]; omega) (by rw [numFields]; omega)
  have hncols' : toFieldOffset (a.tableRow tabid).tabncols = (a.tableRow tabid).tabncols := hncols
  rw [SysTableTable.stored, hncols', tableRow, storedName_of_le h.tabname, Nat.mod_eq_of_lt htabid,
    Nat.mod_eq_of_lt h.fid]

theorem InRange.columnRow_stored (h : a.InRange) (htabid : tabid < 2 ^ 32) (hi : i ≤ 32767) :
    (a.columnRow tabid i).stored = a.columnRow tabid i := by
  have htypid : a.coltypid.getD i 0 < 2 ^ 32 := getD_mem h.typids (Nat.two_pow_pos 32) i
  have htypparam : a.coltypparam.getD i 0 < 2 ^ 64 := getD_mem h.typparams (Nat.two_pow_pos 64) i
  have hname : (a.fieldNames.getD i []).length ≤ 32767 := getD_mem h.names (Nat.zero_le _) i
  have hcolid : toFieldOffset (a.columnRow tabid i).colid = (a.columnRow tabid i).colid :=
    toFieldOffset_of_mem (x := i) (by omega) (by omega)
  rw [SysTableColumn.stored, hcolid, columnRow, storedName_of_le hname, Nat.mod_eq_of_lt htabid,
    Nat.mod_eq_of_lt htypid, Nat.mod_eq_of_lt htypparam]

end Rows

end AddTableArgs

structure Unchanged (st st' : CatCache) : Prop where
  content : st'.content = st.content
  file : ∀ fid, st'.files.file? fid = st.files.file? fid

theorem Kept.unchanged {builtin : BuiltinTable} {c : Content} {st st' : CatCache}
    (h : Kept builtin c st st') (hst : Holding builtin c st) : Unchanged st st' :=
  ⟨by rw [h.holding.content_eq, hst.content_eq], h.file⟩

section Effect

variable {α β : Type} (kind : InsertKind α)

/-- There is room for row number `i` of those to be inserted: its payload is short enough, and
the file of the systable has fewer rows than it can have. -/
def FitsIn (c : Content) (i : Nat) (a : α) : Prop :=
  Schema.NameFits (systableSchema kind.systabid) (nameColumn kind.systabid) (kind.vector a) ∧
    (c.rows kind.systabid).length + i < 65534

instance (c : Content) (i : Nat) (a : α) : Decidable (FitsIn kind c i a) :=
  inferInstanceAs (Decidable (_ ∧ _))

/-- What an addition of a row `a` and of the rows `l` of another systable does to the content of
the catalog: nothing, when it raises an error before; or the whole of it; or it raises an error
at the first of the rows `l` that there is no room for, and what it has added stays. -/
inductive AddEffect (p : InsertKind α) (q : InsertKind β) (accepted : Prop) (st : CatCache)
    (a : α) (l : List β) : Except Failure Nat × CatCache → Prop
  | nothing {e st'} (refused : ¬ accepted ∨ Exhausted st.files ∨ ¬ FitsIn p st.content 0 a)
      (same : Unchanged st st') : AddEffect p q accepted st a l (.error e, st')
  | everything {st'} (checked : accepted) (issued : ¬ Exhausted st.files)
      (row : FitsIn p st.content 0 a)
      (rest : ∀ (i : Nat) (b : β), l[i]? = some b → FitsIn q st.content i b)
      (added : st'.content = q.push (p.push st.content [p.stored a]) (l.map q.stored)) :
      AddEffect p q accepted st a l (.ok st.files.nextOid, st')
  | part {e st' n b} (checked : accepted) (issued : ¬ Exhausted st.files)
      (row : FitsIn p st.content 0 a)
      (rest : ∀ (i : Nat) (b : β), (l.take n)[i]? = some b → FitsIn q st.content i b)
      (next : l[n]? = some b ∧ ¬ FitsIn q st.content n b)
      (added : st'.content = q.push (p.push st.content [p.stored a]) ((l.take n).map q.stored)) :
      AddEffect p q accepted st a l (.error e, st')

variable {kind} {p : InsertKind α} {q : InsertKind β} {builtin : BuiltinTable} {c : Content}
  {st : CatCache}

theorem fits_iff_fitsIn (hcompact : Compact c st.files) (i : Nat) (a : α) :
    Fits kind c st.files i a ↔ FitsIn kind c i a := by
  rw [Fits, FitsIn, hcompact _ kind.mem]

theorem AddOutcome.effect {a : α} {l : List β} {out : Except Failure Nat × CatCache}
    {accepted : Prop} (haccepted : accepted) (hst : Holding builtin c st)
    (hcompact : Compact c st.files) (h : AddOutcome p q builtin c st st.files.nextOid a l out) :
    AddEffect p q accepted st a l out := by
  have hcontent := hst.content_eq
  have hall : ∀ {l : List β}, AllFit q c st.files 0 l →
      ∀ (i : Nat) (b : β), l[i]? = some b → FitsIn q st.content i b := by
    intro l hall i b hb
    have hfits := hall i b hb
    rw [Nat.zero_add, fits_iff_fitsIn hcompact, ← hcontent] at hfits
    exact hfits
  have hrow : ∀ {i : Nat} {γ : Type} {kind : InsertKind γ} {x : γ},
      Fits kind c st.files i x ↔ FitsIn kind st.content i x := by
    intro i γ kind x
    rw [fits_iff_fitsIn hcompact, hcontent]
  have hadded : ∀ {l : List β} {st' : CatCache},
      Added p q builtin c st st.files.nextOid a l st' →
        st'.content = q.push (p.push st.content [p.stored a]) (l.map q.stored) := by
    intro l st' hadd
    rw [hadd.holding.content_eq, hcontent]
  cases h with
  | exhausted hex hkept =>
      exact .nothing (.inr (.inl hex)) (hkept.unchanged hst)
  | rowRefused _ hnot hkept =>
      exact .nothing (.inr (.inr fun hfit => hnot (hrow.mpr hfit))) (hkept.unchanged hst)
  | added hex hfit hrest hadd =>
      exact .everything haccepted hex (hrow.mp hfit) (hall hrest) (hadded hadd)
  | @restRefused e st' l₁ b l₂ hex hfit heq hrest hnext hadd =>
      have htake : l.take l₁.length = l₁ := by rw [heq, List.take_left]
      refine .part (n := l₁.length) (b := b) haccepted hex (hrow.mp hfit) ?_ ⟨?_, ?_⟩ ?_
      · rw [htake]
        exact hall hrest
      · rw [heq, List.getElem?_append_right le_rfl, Nat.sub_self]
        rfl
      · exact fun hfit => hnext (hrow.mpr hfit)
      · rw [htake]
        exact hadded hadd

theorem AddEffect.returns {a : α} {l : List β} {out : Except Failure Nat × CatCache}
    {accepted : Prop} (h : AddEffect p q accepted st a l out) (haccepted : accepted)
    (hissued : ¬ Exhausted st.files) (hrow : FitsIn p st.content 0 a)
    (hrest : ∀ (i : Nat) (b : β), l[i]? = some b → FitsIn q st.content i b) :
    ∃ st', out = (.ok st.files.nextOid, st') := by
  cases h with
  | nothing hnot _ =>
      rcases hnot with hnot | hex | hnot
      · exact absurd haccepted hnot
      · exact absurd hex hissued
      · exact absurd hrow hnot
  | everything _ _ _ _ _ => exact ⟨_, rfl⟩
  | part _ _ _ _ hnext _ => exact absurd (hrest _ _ hnext.1) hnext.2

end Effect

theorem Holding.addTable_effect {num : Numbers} {others : BuiltinTable} {st : CatCache}
    (hst : Holding (findBuiltinFunction num others) st.content st)
    (hcompact : Compact st.content st.files) (n : Nat) (args : AddTableArgs) :
    AddEffect .table .column (args.Accepted args.filled st.content) st
      (args.filled.tableRow st.files.nextOid) (args.filled.columnRows st.files.nextOid)
      (addTable (findBuiltinFunction num others)
        (findTableDesc (findBuiltinFunction num others) (n + 2)) args st) := by
  have hout := addTable_outcome (findBuiltinFunction_compares num others) n hst args
  generalize addTable _ _ _ _ = out at hout ⊢
  cases hout with
  | refused hnot hkept =>
      exact .nothing (.inl fun hacc => hnot ⟨_, hacc⟩) (hkept.unchanged hst)
  | @accepted a out hacc hout =>
      cases hacc.checked.2.2.1
      exact hout.effect hacc hst hcompact

/-- In every state that is reached `AddTable` does nothing, or adds the row and all columns and
returns, or adds the row and the columns in front of one that there is no room for. -/
theorem Reached.addTable_effect [StrJoin] {num : Numbers} {others : BuiltinTable} {st : CatCache}
    (hnum : num.InRange) (h : Reached num others st) (n : Nat) (args : AddTableArgs) :
    AddEffect .table .column (args.Accepted args.filled st.content) st
      (args.filled.tableRow st.files.nextOid) (args.filled.columnRows st.files.nextOid)
      (addTable (findBuiltinFunction num others)
        (findTableDesc (findBuiltinFunction num others) (n + 2)) args st) :=
  (h.holding hnum).1.addTable_effect (h.holding hnum).2 n args

section

attribute [local instance] documentedStrJoin

theorem Reached.addTable_effect_sample :
    AddEffect .table .column (sampleTableArgs.Accepted sampleTableArgs.filled sampleState.content)
      sampleState (sampleTableArgs.filled.tableRow sampleState.files.nextOid)
      (sampleTableArgs.filled.columnRows sampleState.files.nextOid)
      (addTable documentedBuiltins (findTableDesc documentedBuiltins 2) sampleTableArgs
        sampleState) :=
  sampleState_reached.addTable_effect documentedNumbers_inRange 0 sampleTableArgs

end

theorem Content.checkTypes_congr {c c' : Content} (h : c'.types = c.types) (typids : List Nat) :
    c'.checkTypes typids = c.checkTypes typids := by
  induction typids with
  | nil => rfl
  | cons typid typids ih => rw [checkTypes, checkTypes, findType, findType, h, ih]

structure AddTableArgs.FitsSample (a : AddTableArgs) : Prop where
  accepted : a.Accepted a.filled sampleContent
  row : Schema.NameFits (systableSchema tabTable) (nameColumn tabTable)
    (a.filled.tableRow (maxSysOid + 1)).getDatumVector
  columns : ∀ b ∈ a.filled.columnRows (maxSysOid + 1),
    Schema.NameFits (systableSchema tabColumn) (nameColumn tabColumn) b.getDatumVector
  few : a.coltypid.length ≤ 1000

theorem AddTableArgs.length_columnRows_le (a : AddTableArgs) (tabid : Nat) :
    (a.columnRows tabid).length ≤ a.coltypid.length := by
  have heq := toFieldOffset_eq a.coltypid.length
  rw [columnRows, List.length_map, List.length_range, numFields]
  omega

theorem AddTableArgs.Accepted.sampleState {args : AddTableArgs}
    (h : args.Accepted args.filled sampleContent) :
    args.Accepted args.filled sampleState.content := by
  obtain ⟨fidOf, hst, -⟩ := sampleState_holding
  have htypes : (sampleContent.withFids fidOf).types = sampleContent.types := rfl
  refine ⟨h.sizes, ?_, h.number⟩
  rw [hst.content_eq, Content.checkTypes_congr htypes]
  exact h.types

theorem AddTableArgs.FitsSample.returns {args : AddTableArgs} (hargs : args.FitsSample) : ∃ st',
    addTable documentedBuiltins (findTableDesc documentedBuiltins 2) args sampleState =
      (.ok (maxSysOid + 1), st') := by
  obtain ⟨fidOf, hst, hcompact, hnext⟩ := sampleState_holding
  have heffect := sampleState_holds.1.addTable_effect sampleState_holds.2 0 args
  have hacc := hargs.accepted.sampleState
  have htables : (sampleState.content.rows tabTable).length = 8 := by
    rw [hst.content_eq]
    rfl
  have hcolumns : (sampleState.content.rows tabColumn).length ≤ 60 := by
    rw [hst.content_eq]
    change ((systabids.flatMap systableColumnsOf).map _).length ≤ 60
    rw [List.length_map]
    decide +kernel
  rw [hnext] at heffect
  have hrow : FitsIn .table sampleState.content 0 (args.filled.tableRow (maxSysOid + 1)) := by
    refine ⟨hargs.row, ?_⟩
    change (sampleState.content.rows tabTable).length + 0 < 65534
    omega
  have hrest : ∀ (i : Nat) (b : SysTableColumn),
      (args.filled.columnRows (maxSysOid + 1))[i]? = some b →
        FitsIn .column sampleState.content i b := by
    intro i b hb
    have hi := (List.getElem?_eq_some_iff.mp hb).1
    have hlen := args.filled.length_columnRows_le (maxSysOid + 1)
    have hfew : args.filled.coltypid.length ≤ 1000 := hargs.few
    refine ⟨hargs.columns b (List.mem_of_getElem? hb), ?_⟩
    change (sampleState.content.rows tabColumn).length + i < 65534
    omega
  have hissued : ¬ Exhausted sampleState.files := by
    rw [Exhausted, hnext]
    decide
  obtain ⟨st', hout⟩ := heffect.returns hacc hissued hrow hrest
  rw [hnext] at hout
  exact ⟨st', hout⟩

theorem sampleTableArgs_fitsSample : sampleTableArgs.FitsSample :=
  ⟨⟨by decide +kernel, by decide +kernel, by decide⟩, by decide +kernel, by decide +kernel,
    by decide⟩

theorem sampleTable_returns : ∃ st', addTable documentedBuiltins
    (findTableDesc documentedBuiltins 2) sampleTableArgs sampleState =
      (.ok (maxSysOid + 1), st') :=
  sampleTableArgs_fitsSample.returns

end Taco
