import Mathlib.Algebra.Order.Ring.Int
import Mathlib.Tactic.Ring

/-!
# Two's complement narrowing

`narrow w x` is the signed value of the low `w` bits of the integer `x`: what a
conversion to a signed machine type of width `w` leaves of `x`. It is the
identity on the range of the type and it only depends on the class of `x`
modulo `2 ^ w`, so a chain of narrowed operations can be narrowed once at its
end.
-/

namespace TwosComplement

/-- The low `w` bits of `x`, read as a signed integer. -/
def narrow (w : Nat) (x : Int) : Int :=
  (x + 2 ^ (w - 1)) % 2 ^ w - 2 ^ (w - 1)

/-- The narrowing to sixteen bits with its constants written out, in the form
linear arithmetic can use. -/
theorem narrow_sixteen (x : Int) :
    narrow 16 x = (x + 32768) % 65536 - 32768 := rfl

theorem narrow_of_mem {w : Nat} (hw : 0 < w) {x : Int}
    (hlo : -2 ^ (w - 1) ≤ x) (hhi : x < 2 ^ (w - 1)) : narrow w x = x := by
  have hpow : (2 : Int) ^ w = 2 ^ (w - 1) + 2 ^ (w - 1) := by
    have hsucc : w = (w - 1) + 1 := by omega
    calc (2 : Int) ^ w = 2 ^ ((w - 1) + 1) := by rw [← hsucc]
      _ = 2 ^ (w - 1) + 2 ^ (w - 1) := by rw [pow_succ]; ring
  have hmod : (x + 2 ^ (w - 1)) % 2 ^ w = x + 2 ^ (w - 1) := by
    apply Int.emod_eq_of_lt
    · omega
    · rw [hpow]
      omega
  unfold narrow
  rw [hmod]
  omega

theorem narrow_lt {w : Nat} (hw : 0 < w) (x : Int) : narrow w x < 2 ^ (w - 1) := by
  have hmod := Int.emod_lt_of_pos (x + 2 ^ (w - 1)) (Int.pow_pos (show (0 : Int) < 2 by decide) : (0 : Int) < 2 ^ w)
  have hpow : (2 : Int) ^ w = 2 ^ (w - 1) + 2 ^ (w - 1) := by
    rw [← two_mul, ← pow_succ', Nat.sub_add_cancel hw]
  unfold narrow
  omega

theorem narrow_add_mul (w : Nat) (x k : Int) :
    narrow w (x + k * 2 ^ w) = narrow w x := by
  unfold narrow
  rw [show x + k * 2 ^ w + 2 ^ (w - 1) = (x + 2 ^ (w - 1)) + k * 2 ^ w by ring,
    Int.add_mul_emod_self_right]

end TwosComplement
