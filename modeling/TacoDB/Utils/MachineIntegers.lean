import TacoDB.Utils.Typsupp

/-!
# Machine integers in datums

The integer types of `utils/typsupp` share one implementation, with the C type
and the getter of `Datum` filled in. The getter of a type converts the word of
the datum to the type, so it does not see the bits behind the width of the type:
a value is read back from the word it was sign-extended to when the datum was
made, and from a word with zeros there.
-/

namespace Taco

open TwosComplement

namespace IntType

def Contains (t : IntType) (x : Int) : Prop := t.min ≤ x ∧ x ≤ t.max

instance (t : IntType) (x : Int) : Decidable (t.Contains x) :=
  inferInstanceAs (Decidable (_ ∧ _))

def convert (t : IntType) (x : Int) : Int :=
  if t.signed then narrow t.width x else x % 2 ^ t.width

def get (t : IntType) (d : Datum) : Int :=
  if t.signed then d.getInt t.width else d.getUInt t.width

variable {t : IntType}

theorem two_pow_width (hw : 0 < t.width) :
    (2 : Int) ^ t.width = 2 ^ (t.width - 1) + 2 ^ (t.width - 1) := by
  rw [← two_mul, ← pow_succ', Nat.sub_add_cancel hw]

theorem contains_signed (ht : t.signed = true) (x : Int) :
    t.Contains x ↔ -2 ^ (t.width - 1) ≤ x ∧ x < 2 ^ (t.width - 1) := by
  unfold Contains min max
  rw [ht, if_pos rfl, if_pos rfl]
  exact and_congr_right fun _ => Int.le_sub_one_iff

theorem contains_unsigned (ht : t.signed = false) (x : Int) :
    t.Contains x ↔ 0 ≤ x ∧ x < 2 ^ t.width := by
  unfold Contains min max
  rw [ht, if_neg Bool.false_ne_true, if_neg Bool.false_ne_true]
  exact and_congr_right fun _ => Int.le_sub_one_iff

theorem contains_convert (hw : 0 < t.width) (x : Int) : t.Contains (t.convert x) := by
  have hpow := two_pow_width hw
  have hmod := Int.emod_nonneg (x + 2 ^ (t.width - 1))
    (Int.pow_pos (show (0 : Int) < 2 by decide) : (0 : Int) < 2 ^ t.width).ne'
  unfold convert
  cases ht : t.signed with
  | true =>
      rw [contains_signed ht, if_pos rfl]
      refine ⟨?_, narrow_lt hw x⟩
      unfold narrow
      omega
  | false =>
      rw [contains_unsigned ht, if_neg Bool.false_ne_true]
      have hpos : (0 : Int) < 2 ^ t.width := Int.pow_pos (by decide)
      exact ⟨Int.emod_nonneg _ hpos.ne', Int.emod_lt_of_pos _ hpos⟩

theorem convert_of_contains (hw : 0 < t.width) {x : Int} (h : t.Contains x) :
    t.convert x = x := by
  unfold convert
  cases ht : t.signed with
  | true =>
      rw [contains_signed ht] at h
      rw [if_pos rfl, narrow_of_mem hw h.1 h.2]
  | false =>
      rw [contains_unsigned ht] at h
      rw [if_neg Bool.false_ne_true, Int.emod_eq_of_lt h.1 h.2]

theorem convert_add_mul (t : IntType) (x k : Int) :
    t.convert (x + k * 2 ^ t.width) = t.convert x := by
  unfold convert
  rw [narrow_add_mul, Int.add_mul_emod_self_right]

theorem convert_emod {n : Nat} (h : t.width ≤ n) (x : Int) :
    t.convert (x % 2 ^ n) = t.convert x := by
  have hsplit : x % 2 ^ n = x + -(x / 2 ^ n * 2 ^ (n - t.width)) * 2 ^ t.width := by
    have hpow : (2 : Int) ^ n = 2 ^ (n - t.width) * 2 ^ t.width := by
      rw [← pow_add, Nat.sub_add_cancel h]
    have hdiv := Int.mul_ediv_add_emod x (2 ^ n)
    calc x % 2 ^ n = x - 2 ^ n * (x / 2 ^ n) := by omega
      _ = x - (2 ^ (n - t.width) * 2 ^ t.width) * (x / 2 ^ n) := by rw [← hpow]
      _ = x + -(x / 2 ^ n * 2 ^ (n - t.width)) * 2 ^ t.width := by ring
  rw [hsplit, convert_add_mul]

theorem get_eq (t : IntType) (d : Datum) : t.get d = t.convert d.val.toNat := by
  unfold get convert
  cases t.signed with
  | true => rfl
  | false =>
      rw [if_neg Bool.false_ne_true, if_neg Bool.false_ne_true, Datum.getUInt, Int.natCast_emod,
        Int.natCast_pow]
      rfl

theorem contains_get (hw : 0 < t.width) (d : Datum) : t.Contains (t.get d) := by
  rw [get_eq]
  exact contains_convert hw _

theorem get_ofInt (hw : t.width ≤ 64) (x : Int) : t.get (.ofInt x) = t.convert x := by
  rw [get_eq]
  change t.convert (BitVec.ofInt 64 x).toNat = _
  rw [BitVec.toNat_ofInt, Int.toNat_of_nonneg (Int.emod_nonneg _ (by decide))]
  exact convert_emod hw x

theorem get_ofInt_of_contains (hpos : 0 < t.width) (hw : t.width ≤ 64) {x : Int}
    (h : t.Contains x) : t.get (.ofInt x) = x := by
  rw [get_ofInt hw, convert_of_contains hpos h]

end IntType

end Taco
