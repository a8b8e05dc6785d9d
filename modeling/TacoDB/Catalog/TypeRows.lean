import TacoDB.Utils.Typsupp
import TacoDB.Catalog.ExactLayout

/-!
# The types of the `Type` catalog

The rows of `systables/Type.dat` in the build with variable-length data pages,
and the shape they all have.
-/

namespace Taco

def SysTableType.byValue (typid : Nat) (typname : String) (typlen : Nat)
    (typinfunc typoutfunc : Nat) : SysTableType :=
  { typid, typlen, typisvarlen := false, typbyref := false, typalign := typlen,
    typname := ascii typname, typinfunc, typoutfunc, typlenfunc := invalidOid }

def typeRows : List SysTableType :=
  [.byValue 100 "OID" 4 740 741, .byValue 101 "BOOL" 1 770 771,
    .byValue 102 "INT1" 1 500 501, .byValue 103 "INT2" 2 530 531,
    .byValue 104 "INT4" 4 560 561, .byValue 105 "INT8" 8 590 591,
    .byValue 106 "UINT1" 1 620 621, .byValue 107 "UINT2" 2 650 651,
    .byValue 108 "UINT4" 4 680 681, .byValue 109 "UINT8" 8 710 711,
    { typid := 110, typlen := 0, typisvarlen := false, typbyref := true, typalign := 1,
      typname := ascii "CHAR", typinfunc := 890, typoutfunc := 891, typlenfunc := 892 },
    { typid := 111, typlen := -1, typisvarlen := true, typbyref := true, typalign := 1,
      typname := ascii "VARCHAR", typinfunc := 860, typoutfunc := 861,
      typlenfunc := invalidOid },
    { typid := 112, typlen := -1, typisvarlen := true, typbyref := true, typalign := 1,
      typname := ascii "__STRING", typinfunc := invalidOid, typoutfunc := invalidOid,
      typlenfunc := invalidOid },
    .byValue 113 "FLOAT" 4 800 801, .byValue 114 "DOUBLE" 8 830 831]

def findTypeRow (typid : Nat) : Option SysTableType :=
  typeRows.find? fun typ => typ.typid = typid

section

variable (num : Numbers) {others : BuiltinTable}

theorem charTyplen_nonneg {typparam : Nat} {res : Datum}
    (h : charTyplen { args := [Datum.ofInt typparam], typparam := 0 } = .ok res) :
    0 ≤ res.getInt 16 := by
  unfold charTyplen at h
  rw [FunctionCallInfo.arg, List.getElem?_cons_zero, Eff.ok_bind,
    show (Datum.ofInt typparam).isnull = false from rfl, if_neg Bool.false_ne_true] at h
  by_cases hle : (Datum.ofInt typparam).getUInt 64 > 32767
  · rw [if_pos hle] at h
    cases h
  · rw [if_neg hle] at h
    have hres := Except.ok.inj h
    rw [← hres, Datum.getInt, Datum.ofInt, Datum.val, TwosComplement.narrow_sixteen, BitVec.toNat_ofInt]
    omega

theorem typeRows_shaped (hothers : others invalidOid = none) {typ : SysTableType}
    (h : typ ∈ typeRows) : typ.Shaped (findBuiltinFunction num others) := by
  -- only CHAR has a length function
  have hfunc : typ.typlenfunc = invalidOid ∨ typ.typlenfunc = 892 := by
    revert typ
    decide
  have hlist : ∀ typ ∈ typeRows, IsAlignment typ.typalign ∧
      (typ.typisvarlen = false → 0 ≤ typ.typlen) ∧
      (typ.typisvarlen = false → typ.typbyref = false → typ.typlenfunc = invalidOid ∧
        (typ.typlen = 1 ∨ typ.typlen = 2 ∨ typ.typlen = 4 ∨ typ.typlen = 8)) := by
    decide
  obtain ⟨halign, hlen, hbyval⟩ := hlist typ h
  refine ⟨halign, hlen, hbyval, ?_⟩
  intro typparam res hcall
  rcases hfunc with hzero | hchar
  · have hnone : findBuiltinFunction num others typ.typlenfunc = none := by
      rw [hzero]
      exact hothers
    rw [hnone] at hcall
    cases hcall
  · rw [hchar] at hcall
    exact charTyplen_nonneg hcall

def findTypeInRows (oid : Nat) : Eff Failure Unit (Option SysTableType) :=
  pure (findTypeRow oid)

theorem findTypeInRows_shaped (hothers : others invalidOid = none) (oid : Nat)
    (typ : SysTableType) (h : Schema.Found findTypeInRows oid typ) :
    typ.Shaped (findBuiltinFunction num others) := by
  obtain ⟨st, st', h⟩ := h
  have hfind : findTypeRow oid = some typ := Except.ok.inj (congrArg Prod.fst h)
  exact typeRows_shaped num hothers (List.mem_of_find?_eq_some hfind)

theorem eq_of_found_findTypeInRows (oid : Nat) (typ : SysTableType)
    (h : Schema.Found findTypeInRows oid typ) :
    typ = (findTypeRow oid).getD (.byValue 0 "" 0 0 0) := by
  obtain ⟨st, st', h⟩ := h
  have hfind : findTypeRow oid = some typ := Except.ok.inj (congrArg Prod.fst h)
  rw [hfind, Option.getD_some]

def documentedBuiltins : BuiltinTable :=
  findBuiltinFunction documentedNumbers fun _ => none

theorem documentedBuiltins_shaped (oid : Nat) (typ : SysTableType)
    (h : Schema.Found findTypeInRows oid typ) : typ.Shaped documentedBuiltins :=
  findTypeInRows_shaped documentedNumbers rfl oid typ h

end

end Taco
