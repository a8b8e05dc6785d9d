import TacoDB.Catalog.FileScan
import TacoDB.Catalog.CatCacheUpdate

/-!
# The catalog search

What a catalog search computes, said over the decoded rows of the file it goes through: a
row is compared by its fields, and the rows that match are returned in the order of the file
up to the number the caller expects. The search loop does this record by record and takes a
row from the cache when it is there.
-/

namespace Taco

open Eff SlotHeap

def Schema.rowData (s : Schema) (rec : ByteString) : List Datum :=
  (s.dissemblePayload rec).toOption.getD []

def dataMatches (builtin : BuiltinTable) (data : List Datum) : List Predicate → Except Failure Bool
  | [] => .ok true
  | p :: ps => do
      let lhs ← datumAt data p.fieldid
      let res ← functionCall (builtin p.eqFuncid) [lhs, p.rhs]
      if res.isnull then .error (.assertion "!res.isnull()")
      else if res.getBool then dataMatches builtin data ps
      else .ok false

def SearchMode.Full (mode : SearchMode) (ret : List SysTableStruct) : Prop :=
  mode.expectUnique = true ∨ (mode.expectN ≠ 0 ∧ ret.length = mode.expectN)

instance (mode : SearchMode) (ret : List SysTableStruct) : Decidable (mode.Full ret) :=
  inferInstanceAs (Decidable (mode.expectUnique = true ∨
    (mode.expectN ≠ 0 ∧ ret.length = mode.expectN)))

/-- The search over the rows of a systable, with the rows `ret` found so far. -/
def searchRows (builtin : BuiltinTable) (mode : SearchMode) (systabid : Nat)
    (preds : List Predicate) :
    List (List Datum) → List SysTableStruct → Except Failure (List SysTableStruct)
  | [], ret => .ok ret
  | data :: rows, ret => do
      if ← dataMatches builtin data preds then
        let row ← SysTableStruct.create systabid data
        if mode.Full (ret ++ [row]) then .ok (ret ++ [row])
        else searchRows builtin mode systabid preds rows (ret ++ [row])
      else
        searchRows builtin mode systabid preds rows ret

def SearchMode.upTo {α : Type} (mode : SearchMode) (n : Nat) (l : List α) : List α :=
  if mode.expectUnique then l.take 1
  else if mode.expectN = 0 ∨ mode.expectN ≤ n then l
  else l.take (mode.expectN - n)

theorem upTo_cons_of_full {mode : SearchMode} {ret : List SysTableStruct} {row : SysTableStruct}
    (h : mode.Full (ret ++ [row])) (l : List SysTableStruct) :
    mode.upTo ret.length (row :: l) = [row] := by
  rw [SearchMode.Full, List.length_append, List.length_singleton] at h
  unfold SearchMode.upTo
  by_cases hu : mode.expectUnique = true
  · rw [if_pos hu, List.take_succ_cons, List.take_zero]
  · obtain ⟨-, hlen⟩ := h.resolve_left hu
    rw [if_neg hu, if_neg (by omega), show mode.expectN - ret.length = 0 + 1 by omega,
      List.take_succ_cons, List.take_zero]

theorem upTo_cons_of_not_full {mode : SearchMode} {ret : List SysTableStruct}
    {row : SysTableStruct} (h : ¬ mode.Full (ret ++ [row])) (l : List SysTableStruct) :
    mode.upTo ret.length (row :: l) = row :: mode.upTo (ret ++ [row]).length l := by
  rw [SearchMode.Full, List.length_append, List.length_singleton] at h
  have hu : ¬ mode.expectUnique = true := fun hu => h (Or.inl hu)
  unfold SearchMode.upTo
  rw [List.length_append, List.length_singleton, if_neg hu, if_neg hu]
  by_cases hn : mode.expectN = 0 ∨ mode.expectN ≤ ret.length
  · rw [if_pos hn, if_pos (by omega)]
  · have hn' : mode.expectN - ret.length = (mode.expectN - (ret.length + 1)) + 1 := by omega
    rw [if_neg hn, if_neg (by omega), hn', List.take_succ_cons]

/-- When every row can be compared and made a struct, the search returns the rows that
match, up to the expected number. -/
theorem searchRows_eq {builtin : BuiltinTable} {mode : SearchMode} {systabid : Nat}
    {preds : List Predicate} {rows : List (List Datum)} {p : List Datum → Bool}
    {g : List Datum → SysTableStruct}
    (hp : ∀ data ∈ rows, dataMatches builtin data preds = .ok (p data))
    (hg : ∀ data ∈ rows, SysTableStruct.create systabid data = .ok (g data))
    (ret : List SysTableStruct) :
    searchRows builtin mode systabid preds rows ret =
      .ok (ret ++ mode.upTo ret.length ((rows.filter p).map g)) := by
  induction rows generalizing ret with
  | nil =>
      rw [searchRows]
      unfold SearchMode.upTo
      split_ifs <;> simp
  | cons data rows ih =>
      have hrest := ih (fun d hd => hp d (List.mem_cons_of_mem data hd))
        (fun d hd => hg d (List.mem_cons_of_mem data hd))
      rw [searchRows, hp data List.mem_cons_self, ok_bind]
      cases hpd : p data with
      | false =>
          rw [if_neg Bool.false_ne_true, List.filter_cons_of_neg (by simp [hpd]), hrest]
      | true =>
          rw [if_pos rfl, List.filter_cons_of_pos hpd, List.map_cons, hg data List.mem_cons_self,
            ok_bind, hrest]
          by_cases hfull : mode.Full (ret ++ [g data])
          · rw [if_pos hfull, upTo_cons_of_full hfull]
          · rw [if_neg hfull, upTo_cons_of_not_full hfull, List.append_assoc]
            rfl

section

variable {s : Schema} {rec : ByteString} {data : List Datum}

theorem Schema.rowData_eq (h : s.dissemblePayload rec = .ok data) : s.rowData rec = data := by
  rw [rowData, h]
  rfl

/-- A record that can be read gives each of its fields, also in front of other bytes. -/
theorem Schema.getField_of_dissemble (h : s.dissemblePayload rec = .ok data) {i : Nat}
    (hi : (i : Int) < s.getNumFields) (rest : ByteString) :
    s.getField i (rec ++ rest) = datumAt data i := by
  obtain ⟨-, hget⟩ := mapM_eq_ok h
  obtain ⟨d, hd, hfield⟩ := hget i i (List.getElem?_range (by omega))
  rw [getField_extends s rec rest i d hfield, datumAt, hd]

theorem Schema.length_of_dissemble (h : s.dissemblePayload rec = .ok data) :
    data.length = s.getNumFields.toNat := by
  rw [(mapM_eq_ok h).1, List.length_range]

theorem checkIfEqual_eq (builtin : BuiltinTable) (h : s.dissemblePayload rec = .ok data)
    (rest : ByteString) {preds : List Predicate}
    (hpreds : ∀ p ∈ preds, (p.fieldid : Int) < s.getNumFields) :
    checkIfEqual builtin (rec ++ rest) s preds = dataMatches builtin data preds := by
  induction preds with
  | nil => rfl
  | cons p ps ih =>
      rw [checkIfEqual, dataMatches,
        Schema.getField_of_dissemble h (hpreds p List.mem_cons_self),
        ih fun q hq => hpreds q (List.mem_cons_of_mem p hq)]

end

namespace CatCache

/-- What a search needs to know about the states it runs in: the file it goes through, and
that a cached row of the file is the one its record decodes to. -/
structure Scannable (I : CatCache → Prop) (systabid fid : Nat) (schema : Schema)
    (f : InmemFile) : Prop where
  wellFormed : f.WellFormed
  file : ∀ st, I st → st.files.file? fid = some f
  decodes : ∀ rec ∈ f.records, ∃ data, schema.dissemblePayload rec = .ok data
  cached : ∀ st, I st → ∀ (j : Nat) (rec : ByteString) (row : SysTableStruct),
    f.slots[j]? = some ⟨true, rec⟩ → st.recidLookupTable ⟨fid, j⟩ = some row →
      SysTableStruct.create systabid (schema.rowData rec) = .ok row
  cacheRow : ∀ st, I st → ∀ (j : Nat) (rec : ByteString) (row : SysTableStruct),
    f.slots[j]? = some ⟨true, rec⟩ →
      SysTableStruct.create systabid (schema.rowData rec) = .ok row → I (cacheRow ⟨fid, j⟩ row st)

section

variable {I : CatCache → Prop} {systabid fid : Nat} {schema : Schema} {f : InmemFile}

theorem onFiles_computes {α : Type} {x : Eff Failure VolatileFiles α} {y : Except Failure α}
    (hx : ∀ st, I st → x st.files = (y, st.files)) : Computes I (onFiles x) y := by
  intro st hst
  have heq : onFiles x st = (y, st) := by
    rw [onFiles, hx st hst]
  rw [heq]
  exact ⟨rfl, hst⟩

theorem mem_records {j : Nat} {rec : ByteString} (h : f.slots[j]? = some ⟨true, rec⟩) :
    rec ∈ f.records :=
  List.mem_map.mpr ⟨⟨true, rec⟩, List.mem_filter.mpr ⟨List.mem_of_getElem? h, rfl⟩, rfl⟩

theorem getOrCreateCachedEntry_computes (hscan : Scannable I systabid fid schema f)
    (noCache : Bool) {j : Nat} {rec : ByteString} (hslot : f.slots[j]? = some ⟨true, rec⟩)
    (rest : ByteString) :
    Computes I (getOrCreateCachedEntry noCache systabid ⟨fid, j⟩ schema (rec ++ rest))
      (SysTableStruct.create systabid (schema.rowData rec)) := by
  obtain ⟨data, hdata⟩ := hscan.decodes rec (mem_records hslot)
  have hrow := Schema.rowData_eq hdata
  refine .state fun st hst => ?_
  cases hcached : (if noCache then none else st.recidLookupTable ⟨fid, j⟩) with
  | some row =>
      have hlookup : st.recidLookupTable ⟨fid, j⟩ = some row := by
        cases noCache with
        | true => cases hcached
        | false => exact hcached
      simp only
      rw [hscan.cached st hst j rec row hslot hlookup]
      exact ⟨rfl, hst⟩
  | none =>
      simp only
      rw [Schema.dissemblePayload_extends schema rec rest data hdata,
        bind_of_ok (ofExcept_apply _ _), hrow]
      cases hcreate : SysTableStruct.create systabid data with
      | error e => exact ⟨rfl, hst⟩
      | ok row =>
          rw [bind_of_ok (ofExcept_apply _ _)]
          cases noCache with
          | true => exact ⟨rfl, hst⟩
          | false =>
              exact ⟨rfl, hscan.cacheRow st hst j rec row hslot (by rw [hrow, hcreate])⟩

/-- The search loop computes the search over the rows from its iterator on. -/
theorem searchLoop_computes {builtin : BuiltinTable} (hscan : Scannable I systabid fid schema f)
    (mode : SearchMode) {preds : List Predicate}
    (hpreds : ∀ p ∈ preds, (p.fieldid : Int) < schema.getNumFields) {n i : Nat}
    (hi : i ≤ f.offsets.length) (hn : f.offsets.length - i < n) (ret : List SysTableStruct) :
    Computes I (searchLoop builtin mode systabid schema preds n (iteratorAt fid f i) ret)
      (searchRows builtin mode systabid preds
        ((f.recordsFrom i).map fun r => schema.rowData r.2) ret) := by
  have hlen := hscan.wellFormed.length_le
  induction n generalizing i ret with
  | zero => omega
  | succ n ih =>
      unfold searchLoop
      have hnext := fun st hst =>
        nextCatEntry_eq (hscan.file st hst) hscan.wellFormed hi
      cases hrecs : f.recordsFrom i with
      | nil =>
          simp only [hrecs] at hnext
          exact .bind_ok (onFiles_computes hnext) (.ret _)
      | cons p recs =>
          obtain ⟨j, rec⟩ := p
          obtain ⟨hij, hj, hvalid, rfl, off, rest, hoff, hmem, hslot⟩ :=
            hscan.wellFormed.recordsFrom_cons hi hrecs
          simp only [hrecs] at hnext
          obtain ⟨data, hdata⟩ := hscan.decodes rec (mem_records hslot)
          refine .bind_ok (onFiles_computes hnext) ?_
          have hcur := fun st hst =>
            getCurrentCatEntry_eq (hscan.file st hst) (by omega : j < 65534) hvalid hoff
          rw [hmem] at hcur
          refine .bind_ok (onFiles_computes hcur) ?_
          rw [checkIfEqual_eq builtin hdata rest hpreds, List.map_cons, searchRows,
            Schema.rowData_eq hdata]
          refine .bind (.lift _) fun equal _ => ?_
          have hrec : ∀ ret, Computes I
              (searchLoop builtin mode systabid schema preds n (iteratorAt fid f (j + 1)) ret)
              (searchRows builtin mode systabid preds
                ((f.recordsFrom (j + 1)).map fun r => schema.rowData r.2) ret) :=
            fun ret => ih (by omega) (by omega) ret
          cases equal with
          | false => exact hrec ret
          | true =>
              rw [if_pos rfl, if_pos rfl, getCurrentCatEntryRecordId,
                curIdx_iteratorAt f (by omega)]
              have hrow := getOrCreateCachedEntry_computes hscan mode.noCache hslot rest
              rw [Schema.rowData_eq hdata] at hrow
              refine .bind hrow fun row _ => ?_
              exact .branch Iff.rfl (.ret _) (hrec _)

end

end CatCache

end Taco
