import Mathlib.Algebra.Order.Ring.Int
import Mathlib.Data.BitVec
import Mathlib.Tactic.Ring

/-!
# Rounding up to an alignment

`alignUp a n` is the least multiple of `a` that is at least `n`. The library
works in unbounded integers; `maskDown_toNat` is the bridge to the usual
machine idiom, which clears the low bits with the mask `~(2 ^ k - 1)`.
-/

namespace Alignment

/-- The least multiple of `a` not below `n`. -/
def alignUp (a : Nat) (n : Int) : Int :=
  (n + (a - 1)) / a * a

theorem le_alignUp {a : Nat} (ha : 0 < a) (n : Int) : n ≤ alignUp a n := by
  have hdiv := Int.mul_ediv_add_emod (n + (a - 1)) a
  have hmod := Int.emod_lt_of_pos (n + (a - 1)) (show (0 : Int) < a by omega)
  unfold alignUp
  rw [mul_comm]
  omega

theorem alignUp_lt {a : Nat} (ha : 0 < a) (n : Int) : alignUp a n < n + a := by
  have hdiv := Int.mul_ediv_add_emod (n + (a - 1)) a
  have hmod := Int.emod_nonneg (n + (a - 1)) (show (a : Int) ≠ 0 by omega)
  unfold alignUp
  rw [mul_comm]
  omega

theorem dvd_alignUp (a : Nat) (n : Int) : (a : Int) ∣ alignUp a n :=
  Dvd.intro_left _ rfl

theorem alignUp_mono {a : Nat} (ha : 0 < a) {m n : Int} (h : m ≤ n) :
    alignUp a m ≤ alignUp a n := by
  have hdiv := Int.ediv_le_ediv (show (0 : Int) < a by omega)
    (show m + (a - 1) ≤ n + (a - 1) by omega)
  exact mul_le_mul_of_nonneg_right hdiv (by omega)

theorem alignUp_of_dvd {a : Nat} (ha : 0 < a) {n : Int} (h : (a : Int) ∣ n) :
    alignUp a n = n := by
  obtain ⟨k, rfl⟩ := h
  have hquot : (a * k + ((a : Int) - 1)) / a = k := by
    rw [Int.add_comm, Int.add_mul_ediv_left _ _ (by omega),
      Int.ediv_eq_zero_of_lt (by omega) (by omega), zero_add]
  rw [alignUp, hquot, mul_comm]

theorem alignUp_le_of_dvd {a : Nat} (ha : 0 < a) {m n : Int} (h : (a : Int) ∣ m)
    (hle : n ≤ m) : alignUp a n ≤ m := by
  have hmono := alignUp_mono ha hle
  rwa [alignUp_of_dvd ha h] at hmono

theorem alignUp_add_of_dvd {a : Nat} (ha : 0 < a) {d : Int} (h : (a : Int) ∣ d)
    (n : Int) : alignUp a (d + n) = d + alignUp a n := by
  obtain ⟨k, rfl⟩ := h
  have hquot : (a * k + n + ((a : Int) - 1)) / a = k + (n + (a - 1)) / a := by
    rw [show a * k + n + ((a : Int) - 1) = (n + (a - 1)) + a * k by ring,
      Int.add_mul_ediv_left _ _ (by omega), add_comm]
  rw [alignUp, hquot, alignUp]
  ring

@[simp] theorem alignUp_one (n : Int) : alignUp 1 n = n := by
  simp [alignUp]

/-- Clearing the low `k` bits of a word rounds it down to a multiple of
`2 ^ k`. -/
theorem maskDown_toNat {w : Nat} (k : Nat) (x : BitVec w) :
    (x &&& ~~~(BitVec.ofNat w (2 ^ k - 1))).toNat = x.toNat / 2 ^ k * 2 ^ k := by
  have hshift : x &&& ~~~(BitVec.ofNat w (2 ^ k - 1)) = (x >>> k) <<< k := by
    apply BitVec.eq_of_getLsbD_eq
    intro i hi
    have hbit : (BitVec.ofNat w (2 ^ k - 1)).getLsbD i = decide (i < k) := by
      rw [BitVec.getLsbD_ofNat, Nat.testBit_two_pow_sub_one]
      simp [hi]
    simp only [BitVec.getLsbD_and, BitVec.getLsbD_not, BitVec.getLsbD_shiftLeft,
      BitVec.getLsbD_ushiftRight, hbit]
    by_cases hik : i < k
    · simp [hik]
    · simp [hik, hi, show k + (i - k) = i by omega]
  have hle : x.toNat / 2 ^ k * 2 ^ k ≤ x.toNat := Nat.div_mul_le_self _ _
  have hlt : x.toNat / 2 ^ k * 2 ^ k < 2 ^ w := lt_of_le_of_lt hle x.isLt
  rw [hshift, BitVec.toNat_shiftLeft, BitVec.toNat_ushiftRight, Nat.shiftLeft_eq,
    Nat.shiftRight_eq_div_pow, Nat.mod_eq_of_lt hlt]

end Alignment
