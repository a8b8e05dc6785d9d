import Mathlib.Data.BitVec
import Mathlib.Tactic.Ring

/-!
# Little-endian byte strings

`leBytes n x` is the `n`-byte little-endian form of `x`, which drops everything
above the low `8 * n` bits, and `leNat` reads a byte string back. The two are
inverse up to that truncation.
-/

namespace LittleEndian

/-- The low `n` bytes of `x`, least significant byte first. -/
def leBytes : Nat → Nat → List (BitVec 8)
  | 0, _ => []
  | n + 1, x => BitVec.ofNat 8 x :: leBytes n (x / 256)

/-- The number a byte string denotes, least significant byte first. -/
def leNat : List (BitVec 8) → Nat
  | [] => 0
  | b :: bs => b.toNat + 256 * leNat bs

@[simp] theorem length_leBytes (n x : Nat) : (leBytes n x).length = n := by
  induction n generalizing x with
  | zero => rfl
  | succ n ih => simp [leBytes, ih]

theorem leNat_leBytes (n x : Nat) : leNat (leBytes n x) = x % 256 ^ n := by
  induction n generalizing x with
  | zero => simp [leBytes, leNat, Nat.mod_one]
  | succ n ih =>
      have hhead : (BitVec.ofNat 8 x).toNat = x % 256 := BitVec.toNat_ofNat x 8
      rw [leBytes, leNat, ih, hhead, pow_succ, mul_comm (256 ^ n) 256, Nat.mod_mul]

theorem leBytes_mod (n x : Nat) : leBytes n (x % 256 ^ n) = leBytes n x := by
  induction n generalizing x with
  | zero => rfl
  | succ n ih =>
      have hdiv : x % 256 ^ (n + 1) / 256 = x / 256 % 256 ^ n := by
        rw [pow_succ, mul_comm (256 ^ n) 256, Nat.mod_mul_right_div_self]
      have hhead : BitVec.ofNat 8 (x % 256 ^ (n + 1)) = BitVec.ofNat 8 x := by
        apply BitVec.eq_of_toNat_eq
        rw [BitVec.toNat_ofNat, BitVec.toNat_ofNat]
        exact Nat.mod_mod_of_dvd x (Dvd.intro_left (256 ^ n) (pow_succ 256 n).symm)
      rw [leBytes, hdiv, ih, hhead, leBytes]

theorem take_leBytes {m n : Nat} (h : n ≤ m) (x : Nat) :
    (leBytes m x).take n = leBytes n x := by
  induction n generalizing m x with
  | zero => rfl
  | succ n ih =>
      obtain ⟨m, rfl⟩ : ∃ k, m = k + 1 := ⟨m - 1, by omega⟩
      rw [leBytes, List.take_succ_cons, ih (by omega), leBytes]

end LittleEndian
