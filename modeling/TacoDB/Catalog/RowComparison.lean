import TacoDB.Catalog.Search
import TacoDB.Catalog.RowPayload

/-!
# The comparisons of the catalog search

The fields of a row of a systable are never NULL, so the equality functions, which are
strict, compare any of them with any key that is not NULL. What the searches of the catalog
cache compare is said here over the structs of the rows.
-/

namespace Taco

open Eff Initoids

structure BuiltinTable.Compares (builtin : BuiltinTable) : Prop where
  oid : builtin funcOidEq = some oidEq
  int2 : builtin funcInt2Eq = some (intEq 16)
  uint1 : builtin funcUint1Eq = some (uintEq 8)
  varchar : builtin funcVarcharStringEqCi = some varcharStringEqCi

theorem findBuiltinFunction_compares (num : Numbers) (others : BuiltinTable) :
    (findBuiltinFunction num others).Compares :=
  ⟨rfl, rfl, rfl, rfl⟩

/-- A predicate that can be evaluated on every row: its equality function is strict and the
key is not NULL. -/
def Predicate.Strict (builtin : BuiltinTable) (p : Predicate) : Prop :=
  (∃ f, builtin p.eqFuncid = some (strictBinary f)) ∧ p.rhs.isnull = false

def Predicate.holds (builtin : BuiltinTable) (p : Predicate) (data : List Datum) : Bool :=
  match functionCall (builtin p.eqFuncid) [fieldOf data p.fieldid, p.rhs] with
  | .ok res => res.getBool
  | .error _ => false

theorem getBool_ofBool (b : Bool) : (Datum.ofBool b).getBool = b := by
  cases b <;> rfl

section

variable {builtin : BuiltinTable} {data : List Datum} {p : Predicate}

theorem functionCall_strict {f : Datum → Datum → Bool} {x y : Datum} (hx : x.isnull = false)
    (hy : y.isnull = false) :
    functionCall (some (strictBinary f)) [x, y] = .ok (.ofBool (f x y)) := by
  change (if x.isnull || y.isnull then .ok .null else .ok (.ofBool (f x y)) :
    Except Failure Datum) = _
  rw [hx, hy]
  rfl

theorem Predicate.holds_strict {f : Datum → Datum → Bool}
    (hf : builtin p.eqFuncid = some (strictBinary f)) (hd : (fieldOf data p.fieldid).isnull = false)
    (hr : p.rhs.isnull = false) : p.holds builtin data = f (fieldOf data p.fieldid) p.rhs := by
  rw [holds, hf, functionCall_strict hd hr]
  exact getBool_ofBool _

theorem dataMatches_cons (hp : p.Strict builtin) (hi : p.fieldid < data.length)
    (hd : ∀ d ∈ data, d.isnull = false) (ps : List Predicate) :
    dataMatches builtin data (p :: ps) =
      if p.holds builtin data then dataMatches builtin data ps else .ok false := by
  obtain ⟨⟨f, hf⟩, hr⟩ := hp
  have hget : data[p.fieldid]? = some (fieldOf data p.fieldid) := by
    rw [List.getElem?_eq_getElem hi, fieldOf, List.getD_eq_getElem?_getD,
      List.getElem?_eq_getElem hi, Option.getD_some]
  have hnull := hd _ (List.mem_of_getElem? hget)
  rw [dataMatches, datumAt, hget, ok_bind, hf, functionCall_strict hnull hr, ok_bind,
    Predicate.holds_strict hf hnull hr]
  rw [if_neg (show ¬ (Datum.ofBool (f (fieldOf data p.fieldid) p.rhs)).isnull = true from
    Bool.false_ne_true), getBool_ofBool]

/-- Strict predicates match a row when all equality functions are true. -/
theorem dataMatches_eq {preds : List Predicate} (hstrict : ∀ p ∈ preds, p.Strict builtin)
    (hi : ∀ p ∈ preds, p.fieldid < data.length) (hd : ∀ d ∈ data, d.isnull = false) :
    dataMatches builtin data preds = .ok (preds.all fun p => p.holds builtin data) := by
  induction preds with
  | nil => rfl
  | cons p ps ih =>
      rw [dataMatches_cons (hstrict p List.mem_cons_self) (hi p List.mem_cons_self) hd,
        ih (fun q hq => hstrict q (List.mem_cons_of_mem p hq))
          (fun q hq => hi q (List.mem_cons_of_mem p hq)), List.all_cons]
      cases p.holds builtin data <;> rfl

end

section

variable {s : Schema} {rec : ByteString} {data : List Datum}

theorem Schema.getField_notNull {i : Nat} (hnull : (s.fieldAt i).nullbitId < 0) {d : Datum}
    (h : s.getField i rec = .ok d) : d.isnull = false := by
  rw [getField, fieldIsNull, if_pos hnull, ok_bind, if_neg Bool.false_ne_true] at h
  obtain ⟨p, -, h⟩ := except_bind_eq_ok_iff.mp h
  split at h
  · obtain ⟨bytes, -, h⟩ := except_bind_eq_ok_iff.mp h
    cases h
    rfl
  · split at h
    · obtain ⟨bytes, -, h⟩ := except_bind_eq_ok_iff.mp h
      cases h
      rfl
    · unfold Datum.fromFixedlenBytes at h
      split at h
      · obtain ⟨bytes, -, h⟩ := except_bind_eq_ok_iff.mp h
        cases h
        rfl
      · cases h

theorem systableSchema_fields {systabid : Nat} (h : systabid ∈ systabids) :
    (systableSchema systabid).getNumFields = ((systableColumnsOf systabid).length : Int) ∧
      ∀ i < (systableColumnsOf systabid).length,
        ((systableSchema systabid).fieldAt i).nullbitId < 0 := by
  have hall : ∀ k ∈ systabids,
      (systableSchema k).getNumFields = ((systableColumnsOf k).length : Int) ∧
        ∀ i < (systableColumnsOf k).length, ((systableSchema k).fieldAt i).nullbitId < 0 := by
    decide +kernel
  exact hall systabid h

structure RowFields (systabid : Nat) (data : List Datum) : Prop where
  length : data.length = (systableColumnsOf systabid).length
  notNull : ∀ d ∈ data, d.isnull = false

theorem rowFields_of_dissemble {systabid : Nat} (h : systabid ∈ systabids)
    (hdata : (systableSchema systabid).dissemblePayload rec = .ok data) :
    RowFields systabid data := by
  obtain ⟨hnum, hnull⟩ := systableSchema_fields h
  have hlen : data.length = (systableColumnsOf systabid).length := by
    rw [Schema.length_of_dissemble hdata, hnum, Int.toNat_natCast]
  refine ⟨hlen, fun d hd => ?_⟩
  obtain ⟨i, hi⟩ := List.mem_iff_getElem?.mp hd
  have hlt := (List.getElem?_eq_some_iff.mp hi).1
  obtain ⟨-, hget⟩ := mapM_eq_ok hdata
  obtain ⟨d', hd', hfield⟩ := hget i i (List.getElem?_range (by omega))
  rw [hi] at hd'
  cases hd'
  exact Schema.getField_notNull (hnull i (by omega)) hfield

end

section

variable {builtin : BuiltinTable} (hcmp : builtin.Compares) {data : List Datum} {i : Nat}
  (hi : i < data.length) (hd : ∀ d ∈ data, d.isnull = false)

include hi hd in
theorem fieldOf_notNull : (fieldOf data i).isnull = false := by
  rw [fieldOf, List.getD_eq_getElem?_getD, List.getElem?_eq_getElem hi, Option.getD_some]
  exact hd _ (List.getElem_mem hi)

theorem val_ofInt_mod (w x : Nat) (hw : w ≤ 64) : (Datum.ofInt x).getUInt w = x % 2 ^ w := by
  change (BitVec.ofInt 64 x).toNat % 2 ^ w = _
  rw [BitVec.ofInt_natCast, BitVec.toNat_ofNat, Nat.mod_mod_of_dvd _ (pow_dvd_pow 2 hw)]

theorem getInt_ofInt (x : Int) : (Datum.ofInt x).getInt 16 = toFieldOffset x := by
  have hval : ((Datum.ofInt x).val.toNat : Int) = x % 2 ^ 64 := by
    change ((BitVec.ofInt 64 x).toNat : Int) = _
    rw [BitVec.toNat_ofInt]
    omega
  rw [Datum.getInt, TwosComplement.narrow_sixteen, toFieldOffset_eq]
  omega

include hcmp hi hd

theorem holds_oid (oid : Nat) :
    (Predicate.mk i funcOidEq (.ofInt oid)).holds builtin data =
      decide ((fieldOf data i).getUInt 32 = oid % 2 ^ 32) := by
  rw [Predicate.holds_strict (p := ⟨i, funcOidEq, .ofInt oid⟩) hcmp.oid (fieldOf_notNull hi hd) rfl,
    val_ofInt_mod 32 oid (by decide)]

theorem holds_int2 (x : Int) :
    (Predicate.mk i funcInt2Eq (.ofInt x)).holds builtin data =
      decide ((fieldOf data i).getInt 16 = toFieldOffset x) := by
  rw [Predicate.holds_strict (p := ⟨i, funcInt2Eq, .ofInt x⟩) hcmp.int2 (fieldOf_notNull hi hd) rfl,
    getInt_ofInt]

theorem holds_uint1 (x : Nat) :
    (Predicate.mk i funcUint1Eq (.ofInt x)).holds builtin data =
      decide ((fieldOf data i).getUInt 8 = x % 2 ^ 8) := by
  rw [Predicate.holds_strict (p := ⟨i, funcUint1Eq, .ofInt x⟩) hcmp.uint1 (fieldOf_notNull hi hd)
    rfl, val_ofInt_mod 8 x (by decide)]

theorem holds_varchar (name : ByteString) :
    (Predicate.mk i funcVarcharStringEqCi (.fromVarlenBytes name)).holds builtin data =
      stringEqualCi (fieldOf data i).getVarlenBytes
        (Datum.fromVarlenBytes name).getVarlenBytes :=
  Predicate.holds_strict (p := ⟨i, funcVarcharStringEqCi, .fromVarlenBytes name⟩) hcmp.varchar
    (fieldOf_notNull hi hd) rfl

end

end Taco
