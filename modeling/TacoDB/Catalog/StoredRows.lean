import TacoDB.Catalog.RowPayload

/-!
# Rows that are stored again

A row that was read from its payload is stored as it is: what is read from the new payload is
that row. When one of its columns by value is changed before, the payload has the same length,
and only that column is read differently.
-/

namespace Taco

open Alignment Buffer LittleEndian

namespace Schema

section

variable {s : Schema} {name? : Option Nat} {data : List Datum} {f : FieldInfo} {d : Datum}

def readStored (f : FieldInfo) (d : Datum) : Datum := readBack f (storedDatum f d)

theorem isnull_readStored (hnull : d.isnull = false) : (readStored f d).isnull = false := by
  rw [readStored, readBack, isnull_storedDatum hnull, if_neg Bool.false_ne_true]
  split
  · rfl
  · rfl

theorem readStored_varlen (hv : f.typlen = -1) (hbyref : f.typbyref = true)
    (hnull : d.isnull = false) :
    readStored f d =
      .fromVarlenBytes (d.getVarlenBytes.take (toFieldOffset d.getVarlenSize).toNat) := by
  have hvar : f.isVarlen = true := decide_eq_true hv
  rw [readStored, readBack, isnull_storedDatum hnull, if_neg Bool.false_ne_true,
    if_pos (Or.inl hvar), image, hbyref, if_pos rfl, storedSize, hvar, if_pos rfl,
    Datum.getVarlenSize, resize_of_le le_rfl, List.take_length, bytes_storedDatum hv]

theorem size_readStored (hv : f.typlen = -1) (hbyref : f.typbyref = true)
    (hnull : d.isnull = false) (hn : 0 ≤ toFieldOffset d.getVarlenSize) :
    ((readStored f d).getVarlenSize : Int) = toFieldOffset d.getVarlenSize := by
  have hle : toFieldOffset d.getVarlenSize ≤ d.getVarlenSize := by
    rw [toFieldOffset_eq] at hn ⊢
    omega
  have hlt := d.getVarlenSize_lt
  have hlen : (d.getVarlenBytes.take (toFieldOffset d.getVarlenSize).toNat).length =
      (toFieldOffset d.getVarlenSize).toNat := by
    rw [List.length_take]
    unfold Datum.getVarlenSize at hle ⊢
    omega
  rw [readStored_varlen hv hbyref hnull, Datum.getVarlenSize,
    Datum.getVarlenBytes_fromVarlenBytes (by omega), hlen]
  omega

theorem readStored_readStored (hf : f.typlen = -1 ∧ f.typbyref = true ∨
      f.typlen ≠ -1 ∧ f.typbyref = false ∧ f.typlen.toNat ≤ 8)
    (hnull : d.isnull = false) (hn : f.typlen = -1 → 0 ≤ toFieldOffset d.getVarlenSize) :
    readStored f (readStored f d) = readStored f d := by
  rcases hf with ⟨hv, hbyref⟩ | ⟨hv, hbyref, hlen⟩
  · have hsize := size_readStored hv hbyref hnull (hn hv)
    have hmax : toFieldOffset d.getVarlenSize ≤ 32767 := by
      rw [toFieldOffset_eq]
      omega
    have hagain : toFieldOffset (readStored f d).getVarlenSize = toFieldOffset d.getVarlenSize := by
      rw [hsize]
      exact toFieldOffset_of_mem (by have := hn hv; omega) hmax
    rw [readStored_varlen hv hbyref (isnull_readStored hnull), hagain]
    have hbytes : (readStored f d).getVarlenBytes.take (toFieldOffset d.getVarlenSize).toNat =
        (readStored f d).getVarlenBytes := by
      refine List.take_of_length_le ?_
      change (readStored f d).getVarlenSize ≤ _
      omega
    have hlt := d.getVarlenSize_lt
    unfold Datum.getVarlenSize at hlt
    rw [hbytes, readStored_varlen hv hbyref hnull, Datum.getVarlenBytes_fromVarlenBytes]
    rw [List.length_take]
    omega
  · have hvar : f.isVarlen = false := decide_eq_false hv
    have hread : ∀ e : Datum, e.isnull = false →
        readStored f e = .fixed (BitVec.ofNat 64 (e.val.toNat % 256 ^ f.typlen.toNat)) := by
      intro e he
      rw [readStored, storedDatum, if_neg hv, readBack, he, if_neg Bool.false_ne_true,
        if_neg (by simp [hvar, hbyref]), image, hbyref, if_neg Bool.false_ne_true, storedSize, hvar,
        if_neg Bool.false_ne_true, resize_of_le (by simpa using hlen), Datum.getFixedlenBytes,
        take_leBytes hlen, leNat_leBytes]
    have hlt : d.val.toNat % 256 ^ f.typlen.toNat < 2 ^ 64 :=
      lt_of_le_of_lt (Nat.mod_le _ _) d.val.isLt
    rw [hread _ (isnull_readStored hnull), hread d hnull]
    change Datum.fixed (BitVec.ofNat 64 ((BitVec.ofNat 64 _).toNat % _)) = _
    rw [BitVec.toNat_ofNat, Nat.mod_eq_of_lt hlt, Nat.mod_mod]

theorem decoded_eq (s : Schema) (data : List Datum) :
    s.decoded data = List.zipWith readStored s.fields data := by
  apply List.ext_getElem?
  intro i
  rw [decoded, storedData, List.getElem?_zipWith, List.getElem?_zipWith, List.getElem?_zipWith]
  cases s.fields[i]? with
  | none => rfl
  | some f =>
      cases data[i]? with
      | none => rfl
      | some d => rfl

theorem RowData.decoded (hd : RowData s data) : RowData s (s.decoded data) := by
  rw [decoded_eq]
  constructor
  · rw [List.length_zipWith, hd.length, Nat.min_self]
  · intro d hmem
    obtain ⟨i, hi⟩ := List.mem_iff_getElem?.mp hmem
    rw [List.getElem?_zipWith] at hi
    cases hf : s.fields[i]? with
    | none =>
        rw [hf] at hi
        cases hi
    | some f =>
        cases hd' : data[i]? with
        | none =>
            rw [hf, hd'] at hi
            cases hi
        | some d' =>
            rw [hf, hd'] at hi
            cases hi
            exact isnull_readStored (hd.notNull d' (List.mem_of_getElem? hd'))

theorem RowData.set (hd : RowData s data) {i : Nat} {d : Datum} (hnull : d.isnull = false) :
    RowData s (data.set i d) := by
  constructor
  · rw [List.length_set, hd.length]
  · intro d' hmem
    rcases List.mem_or_eq_of_mem_set hmem with hmem | rfl
    · exact hd.notNull d' hmem
    · exact hnull

theorem decoded_set {i : Nat} (hf : s.fields[i]? = some f) (d : Datum) :
    s.decoded (data.set i d) = (s.decoded data).set i (readStored f d) := by
  rw [decoded_eq, decoded_eq]
  apply List.ext_getElem?
  intro j
  rw [List.getElem?_zipWith, List.getElem?_set, List.getElem?_set]
  by_cases hij : i = j
  · subst hij
    rw [if_pos rfl, if_pos rfl, hf, List.length_zipWith]
    have hi := (List.getElem?_eq_some_iff.mp hf).1
    by_cases hlt : i < data.length
    · rw [if_pos hlt, if_pos (by omega)]
    · rw [if_neg hlt, if_neg (by omega)]
  · rw [if_neg hij, if_neg hij, List.getElem?_zipWith]

theorem RowSchema.decoded_decoded (h : RowSchema s name?) (hd : RowData s data)
    (hfit : NameFits s name? data)
    (hbyval : ∀ f ∈ s.fields, f.typlen ≠ -1 → f.typbyref = false) :
    s.decoded (s.decoded data) = s.decoded data := by
  obtain ⟨-, hs⟩ := h.layout
  rw [decoded_eq, decoded_eq]
  apply List.ext_getElem?
  intro i
  rw [List.getElem?_zipWith, List.getElem?_zipWith]
  cases hf : s.fields[i]? with
  | none => rfl
  | some f =>
      cases hd' : data[i]? with
      | none => rfl
      | some d =>
          have hmem := List.mem_of_getElem? hf
          have hshape := hs.shaped f hmem
          have hnull := hd.notNull d (List.mem_of_getElem? hd')
          refine congrArg some (readStored_readStored ?_ hnull fun hv => ?_)
          · by_cases hv : f.typlen = -1
            · exact Or.inl ⟨hv, hshape.byref (decide_eq_true hv)⟩
            · have hb := hbyval f hmem hv
              have hlen := hshape.byval hb
              exact Or.inr ⟨hv, hb, by omega⟩
          · have hname := h.eq_name hf (decide_eq_true hv)
            have hn := hfit.1
            rw [hname, nameSize, Option.elim_some, List.getD_eq_getElem?_getD, hd',
              Option.getD_some] at hn
            exact hn

theorem RowSchema.nameSize_decoded (h : RowSchema s name?) (hd : RowData s data)
    (hfit : NameFits s name? data) : nameSize name? (s.decoded data) = nameSize name? data := by
  obtain ⟨-, hs⟩ := h.layout
  cases name? with
  | none => rw [nameSize, nameSize, Option.elim_none, Option.elim_none]
  | some m =>
      obtain ⟨f, hf, hv, -⟩ := h.name m rfl
      have hm : m < data.length := by
        rw [hd.length]
        exact (List.getElem?_eq_some_iff.mp hf).1
      obtain ⟨d, hdm⟩ : ∃ d, data[m]? = some d := ⟨_, List.getElem?_eq_getElem hm⟩
      have hn := hfit.1
      rw [nameSize, Option.elim_some, List.getD_eq_getElem?_getD, hdm, Option.getD_some] at hn
      have hbyref := (hs.shaped f (List.mem_of_getElem? hf)).byref (decide_eq_true hv)
      have hsize := size_readStored hv hbyref (hd.notNull d (List.mem_of_getElem? hdm)) hn
      have hmax : toFieldOffset d.getVarlenSize ≤ 32767 := by
        rw [toFieldOffset_eq]
        omega
      rw [nameSize, nameSize, Option.elim_some, Option.elim_some, decoded_eq,
        List.getD_eq_getElem?_getD, List.getD_eq_getElem?_getD, List.getElem?_zipWith, hf, hdm]
      change toFieldOffset (readStored f d).getVarlenSize = toFieldOffset d.getVarlenSize
      rw [hsize]
      exact toFieldOffset_of_mem (by omega) hmax

theorem nameSize_set {i : Nat} (hi : name? ≠ some i) (d : Datum) :
    nameSize name? (data.set i d) = nameSize name? data := by
  cases name? with
  | none => rw [nameSize, nameSize, Option.elim_none, Option.elim_none]
  | some m =>
      have hne : i ≠ m := fun heq => hi (congrArg some heq.symm)
      rw [nameSize, nameSize, Option.elim_some, Option.elim_some, List.getD_eq_getElem?_getD,
        List.getD_eq_getElem?_getD, List.getElem?_set_ne hne]

end

end Schema

end Taco
