import Mathlib.Data.Nat.Log
import Mathlib.Order.Bounds.Basic
import TacoDB.Base.Core

/-!
# Integer logarithms

`logn_floor` and `logn_ceil` of `utils/misc.h`. The first one finds the highest byte of its
argument that is not zero and looks its logarithm up in a table of 256 entries; the second
one adds 1 to the floor logarithm of the number below. An `int` result is a natural number
here: there is nothing below zero, and nothing above 64.
-/

namespace Taco

namespace LogTable

/-- `LogTableLT(n)`, a row of 16 entries. -/
def logTableLT (n : Nat) : List Nat := List.replicate 16 n

def logTable256 : List Nat :=
  [0, 0, 1, 1, 2, 2, 2, 2, 3, 3, 3, 3, 3, 3, 3, 3] ++
    logTableLT 4 ++ logTableLT 5 ++ logTableLT 5 ++ logTableLT 6 ++
    logTableLT 6 ++ logTableLT 6 ++ logTableLT 6 ++ logTableLT 7 ++
    logTableLT 7 ++ logTableLT 7 ++ logTableLT 7 ++ logTableLT 7 ++
    logTableLT 7 ++ logTableLT 7 ++ logTableLT 7

def lookup (i : BitVec 64) : Except Failure Nat :=
  match logTable256[i.toNat]? with
  | some n => .ok n
  | none => .error (.undefined "read out of bounds")

end LogTable

open LogTable

def lognFloor (x : BitVec 64) : Except Failure Nat :=
  if x >>> 32 ≠ 0 then
    if x >>> 48 ≠ 0 then
      if x >>> 56 ≠ 0 then (· + 56) <$> lookup (x >>> 56)
      else (· + 48) <$> lookup (x >>> 48)
    else
      if x >>> 40 ≠ 0 then (· + 40) <$> lookup (x >>> 40)
      else (· + 32) <$> lookup (x >>> 32)
  else
    if x >>> 16 ≠ 0 then
      if x >>> 24 ≠ 0 then (· + 24) <$> lookup (x >>> 24)
      else (· + 16) <$> lookup (x >>> 16)
    else
      if x >>> 8 ≠ 0 then (· + 8) <$> lookup (x >>> 8)
      else lookup x

def lognCeil (x : BitVec 64) : Except Failure Nat :=
  if x ≠ 0 then (· + 1) <$> lognFloor (x - 1) else .ok 0

/-- `FieldOffsetBits` and `MaxFieldOffset` for a page of this size. -/
def fieldOffsetBits (pageSize : BitVec 64) : Except Failure Nat := lognCeil pageSize

@[inherit_doc fieldOffsetBits]
def maxFieldOffset (pageSize : BitVec 64) : Except Failure Int :=
  (fun bits : Nat => 2 ^ bits - 1) <$> fieldOffsetBits pageSize

section Floor

theorem logTable256_get {i : Nat} (hi : i < 256) : logTable256[i]? = some (Nat.log 2 i) := by
  have hzero : logTable256[0]? = some 0 := rfl
  have hbounds : ∀ i < 256, i ≠ 0 → ∃ n ∈ logTable256[i]?, 2 ^ n ≤ i ∧ i < 2 ^ (n + 1) := by
    decide +kernel
  rcases Nat.eq_zero_or_pos i with rfl | hpos
  · rw [hzero, Nat.log_zero_right]
  · obtain ⟨n, hn, hle, hlt⟩ := hbounds i hi (Nat.pos_iff_ne_zero.mp hpos)
    rw [Nat.log_eq_of_pow_le_of_lt_pow hle hlt]
    exact hn

theorem lookup_eq {i : BitVec 64} (hi : i.toNat < 2 ^ 8) :
    lookup i = .ok (Nat.log 2 i.toNat) := by
  rw [lookup, logTable256_get hi]

/-- A byte that is not zero, with the bytes behind it cut off, has the logarithm of the whole
number but for their bits. -/
theorem log_shift {n s : Nat} (h : n >>> s ≠ 0) : Nat.log 2 (n >>> s) + s = Nat.log 2 n := by
  have hlow := Nat.pow_log_le_self 2 h
  have hhigh := Nat.lt_pow_succ_log_self Nat.one_lt_two (n >>> s)
  rw [Nat.shiftRight_eq_div_pow] at hlow hhigh ⊢
  symm
  apply Nat.log_eq_of_pow_le_of_lt_pow
  · rw [pow_add]
    exact (Nat.le_div_iff_mul_le (Nat.two_pow_pos s)).mp hlow
  · rw [show Nat.log 2 (n / 2 ^ s) + s + 1 = Nat.log 2 (n / 2 ^ s) + 1 + s by omega, pow_add]
    exact (Nat.div_lt_iff_lt_mul (Nat.two_pow_pos s)).mp hhigh

theorem lookup_shift {x : BitVec 64} {s : Nat} (h : x >>> s ≠ 0) (hlt : x.toNat < 2 ^ (s + 8)) :
    (· + s) <$> lookup (x >>> s) = .ok (Nat.log 2 x.toNat) := by
  have hne : x.toNat >>> s ≠ 0 := by
    intro hzero
    exact h (BitVec.eq_of_toNat_eq (by rw [BitVec.toNat_ushiftRight, hzero]; rfl))
  have hbyte : x.toNat >>> s < 2 ^ 8 := by
    rw [Nat.shiftRight_eq_div_pow, Nat.div_lt_iff_lt_mul (Nat.two_pow_pos s)]
    rwa [pow_add, Nat.mul_comm] at hlt
  rw [lookup_eq (by rw [BitVec.toNat_ushiftRight]; exact hbyte), BitVec.toNat_ushiftRight,
    ← log_shift hne]
  rfl

/-- A number whose bits from `s` on are zero is below `2 ^ s`. -/
theorem lt_of_shift_eq_zero {x : BitVec 64} {s : Nat} (h : ¬ x >>> s ≠ 0) : x.toNat < 2 ^ s := by
  have hzero := congrArg BitVec.toNat (not_not.mp h)
  rw [BitVec.toNat_ushiftRight, Nat.shiftRight_eq_div_pow] at hzero
  exact (Nat.div_eq_zero_iff_lt (Nat.two_pow_pos s)).mp hzero

/-- Each branch of `logn_floor` looks up the highest byte that is not zero. -/
theorem lognFloor_eq_log (x : BitVec 64) : lognFloor x = .ok (Nat.log 2 x.toNat) := by
  unfold lognFloor
  by_cases h32 : x >>> 32 ≠ 0
  · rw [if_pos h32]
    by_cases h48 : x >>> 48 ≠ 0
    · rw [if_pos h48]
      by_cases h56 : x >>> 56 ≠ 0
      · rw [if_pos h56, lookup_shift h56 x.isLt]
      · rw [if_neg h56, lookup_shift h48 (lt_of_shift_eq_zero h56)]
    · rw [if_neg h48]
      by_cases h40 : x >>> 40 ≠ 0
      · rw [if_pos h40, lookup_shift h40 (lt_of_shift_eq_zero h48)]
      · rw [if_neg h40, lookup_shift h32 (lt_of_shift_eq_zero h40)]
  · rw [if_neg h32]
    by_cases h16 : x >>> 16 ≠ 0
    · rw [if_pos h16]
      by_cases h24 : x >>> 24 ≠ 0
      · rw [if_pos h24, lookup_shift h24 (lt_of_shift_eq_zero h32)]
      · rw [if_neg h24, lookup_shift h16 (lt_of_shift_eq_zero h24)]
    · rw [if_neg h16]
      by_cases h8 : x >>> 8 ≠ 0
      · rw [if_pos h8, lookup_shift h8 (lt_of_shift_eq_zero h16)]
      · rw [if_neg h8, lookup_eq (lt_of_shift_eq_zero h8)]

/-- An access to the table returns exactly when its index is below 256. -/
theorem lookup_ok_iff (i : BitVec 64) : (∃ n, lookup i = .ok n) ↔ i.toNat < 256 := by
  constructor
  · rintro ⟨n, hn⟩
    by_contra hle
    have hlen : logTable256.length = 256 := by decide +kernel
    have hnone : logTable256[i.toNat]? = none := by
      rw [List.getElem?_eq_none_iff, hlen]
      omega
    rw [lookup, hnone] at hn
    cases hn
  · intro hi
    rw [lookup, logTable256_get hi]
    exact ⟨_, rfl⟩

/-- `logn_floor` returns, so each access it makes to the table has an index below 256, and it
returns the largest exponent whose power of two is not above its argument, or 0 for 0. -/
theorem lognFloor_spec (x : BitVec 64) :
    (∀ i, (∃ n, lookup i = .ok n) ↔ i.toNat < 256) ∧ ∃ k, lognFloor x = .ok k ∧
      (x ≠ 0 → IsGreatest {j | 2 ^ j ≤ x.toNat} k) ∧ (x = 0 → k = 0) := by
  refine ⟨lookup_ok_iff, _, lognFloor_eq_log x, fun hx => ?_, fun hx => ?_⟩
  · have hne : x.toNat ≠ 0 := fun hzero => hx (BitVec.eq_of_toNat_eq hzero)
    exact ⟨Nat.pow_log_le_self 2 hne, fun j hj => Nat.le_log_of_pow_le Nat.one_lt_two hj⟩
  · rw [hx]
    exact Nat.log_zero_right 2

end Floor

section Ceil

variable {x : BitVec 64}

/-- `logn_ceil` of a number above zero is one more than the logarithm of the number below. -/
theorem lognCeil_eq_log (hx : x ≠ 0) : lognCeil x = .ok (Nat.log 2 (x.toNat - 1) + 1) := by
  have hpos : 1 ≤ x.toNat := by
    by_contra hzero
    exact hx (BitVec.eq_of_toNat_eq (by change x.toNat = 0; omega))
  have hsub : (x - 1).toNat = x.toNat - 1 := BitVec.toNat_sub_of_le hpos
  rw [lognCeil, if_pos hx, lognFloor_eq_log, hsub]
  rfl

/-- From 2 on this is the exponent of the first power of two that is not below the number. -/
theorem log_pred_add_one {n : Nat} (hn : 2 ≤ n) : Nat.log 2 (n - 1) + 1 = Nat.clog 2 n := by
  have hlow := Nat.pow_log_le_self 2 (show n - 1 ≠ 0 by omega)
  have hhigh := Nat.lt_pow_succ_log_self Nat.one_lt_two (n - 1)
  refine le_antisymm ?_ (Nat.clog_le_of_le_pow (by omega))
  by_contra hlt
  have hle : Nat.clog 2 n ≤ Nat.log 2 (n - 1) := by omega
  have hpow := Nat.le_pow_clog Nat.one_lt_two n
  have := Nat.pow_le_pow_right (Nat.zero_lt_two) hle
  omega

/-- `logn_ceil` returns the smallest exponent whose power of two is not below its argument,
for every number above zero but 1. -/
theorem lognCeil_isLeast_iff (hx : x ≠ 0) :
    (∃ k, lognCeil x = .ok k ∧ IsLeast {j | x.toNat ≤ 2 ^ j} k) ↔ x ≠ 1 := by
  rw [lognCeil_eq_log hx]
  constructor
  · rintro ⟨k, hk, hleast⟩ rfl
    cases hk
    have := hleast.2 (show (0 : Nat) ∈ {j | (1 : BitVec 64).toNat ≤ 2 ^ j} from le_refl 1)
    omega
  · intro hone
    have hge : 2 ≤ x.toNat := by
      by_contra hlt
      have hcases : x.toNat = 0 ∨ x.toNat = 1 := by omega
      rcases hcases with hzero | hunit
      · exact hx (BitVec.eq_of_toNat_eq hzero)
      · exact hone (BitVec.eq_of_toNat_eq hunit)
    refine ⟨_, rfl, ?_⟩
    rw [log_pred_add_one hge]
    exact ⟨Nat.le_pow_clog Nat.one_lt_two _, fun j hj => Nat.clog_le_of_le_pow hj⟩

/-- The law at the size of a page. -/
theorem lognCeil_isLeast_pageSize :
    (∃ k, lognCeil 4096 = .ok k ∧ IsLeast {j | (4096 : BitVec 64).toNat ≤ 2 ^ j} k) ↔
      (4096 : BitVec 64) ≠ 1 :=
  lognCeil_isLeast_iff (by decide)

/-- The logarithm of 1 comes out as 1. -/
theorem lognCeil_one :
    ¬ ∃ k, lognCeil 1 = .ok k ∧ IsLeast {j | (1 : BitVec 64).toNat ≤ 2 ^ j} k := by
  rintro ⟨k, hk, hleast⟩
  have hone : lognCeil 1 = .ok 1 := by decide +kernel
  rw [hone] at hk
  cases hk
  exact absurd (hleast.2 (show (0 : Nat) ∈ {j | (1 : BitVec 64).toNat ≤ 2 ^ j} from le_refl 1))
    (by decide)

/-- `MaxFieldOffset` is not below the last offset of a page of more than one byte, and less than
twice the size of the page. -/
theorem maxFieldOffset_spec (hx : x ≠ 0) (hone : x ≠ 1) :
    ∃ m, maxFieldOffset x = .ok m ∧ (x.toNat : Int) ≤ m + 1 ∧ m + 1 < 2 * x.toNat := by
  obtain ⟨k, hk, hle, hleast⟩ := (lognCeil_isLeast_iff hx).mpr hone
  have hpos : x.toNat ≠ 0 := fun hzero => hx (BitVec.eq_of_toNat_eq hzero)
  have hlt : 2 ^ k < 2 * x.toNat := by
    cases k with
    | zero =>
        rw [pow_zero]
        omega
    | succ k =>
        have hbelow : ¬ x.toNat ≤ 2 ^ k := fun hmem => absurd (hleast hmem) (by omega)
        rw [pow_succ]
        omega
  refine ⟨2 ^ k - 1, ?_, ?_, ?_⟩
  · rw [maxFieldOffset, fieldOffsetBits, hk]
    rfl
  · have hle' : (x.toNat : Int) ≤ 2 ^ k := by exact_mod_cast hle
    omega
  · have hlt' : (2 ^ k : Int) < 2 * x.toNat := by exact_mod_cast hlt
    omega

example : fieldOffsetBits 4096 = .ok 12 ∧ maxFieldOffset 4096 = .ok 4095 := by decide +kernel

end Ceil

end Taco
