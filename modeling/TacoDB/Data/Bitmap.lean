import Mathlib.Data.BitVec
import TacoDB.Data.Slice

/-!
# Bitmaps in a byte buffer

Bit `i` of a byte string is bit `i % 8` of its byte `i / 8`. Setting a bit by
or-ing a power of two into its byte changes that bit and no other one, and
testing a bit by and-ing with the power of two reads it.
-/

namespace Bitmap

open Buffer

/-- Bit `i` of a byte string; there are no set bits past its end. -/
def bitSet (l : List (BitVec 8)) (i : Nat) : Bool :=
  (l[i / 8]?.getD 0).getLsbD (i % 8)

theorem getLsbD_or_two_pow (b : BitVec 8) (j k : Nat) (hj : j < 8) :
    (b ||| BitVec.ofNat 8 (2 ^ k)).getLsbD j = (b.getLsbD j || decide (k = j)) := by
  rw [BitVec.getLsbD_or, BitVec.getLsbD_ofNat, Nat.testBit_two_pow]
  simp [hj]

theorem and_two_pow_ne_zero_iff (b : BitVec 8) {k : Nat} (hk : k < 8) :
    (b &&& BitVec.ofNat 8 (2 ^ k) ≠ 0) ↔ b.getLsbD k = true := by
  have hbit : ∀ i, (b &&& BitVec.ofNat 8 (2 ^ k)).getLsbD i =
      (b.getLsbD i && decide (k = i)) := by
    intro i
    rw [BitVec.getLsbD_and, BitVec.getLsbD_ofNat, Nat.testBit_two_pow]
    by_cases hi : i < 8
    · simp [hi]
    · simp [hi, show k ≠ i by omega]
  constructor
  · intro hne
    by_contra hclear
    apply hne
    apply BitVec.eq_of_getLsbD_eq
    intro i _
    rw [hbit, show (0 : BitVec 8).getLsbD i = false from BitVec.getLsbD_zero]
    by_cases hki : k = i
    · subst hki
      simpa using hclear
    · simp [hki]
  · intro hset hzero
    have h := hbit k
    rw [hzero, hset] at h
    simp at h

theorem bitSet_overwrite_or {l : List (BitVec 8)} {pos i : Nat} {b : BitVec 8}
    (hb : l[pos + i / 8]? = some b) (j : Nat) :
    bitSet ((overwrite l (pos + i / 8) [b ||| BitVec.ofNat 8 (2 ^ (i % 8))]).drop pos) j =
      (bitSet (l.drop pos) j || decide (j = i)) := by
  have hlt : pos + i / 8 < l.length := (List.getElem?_eq_some_iff.mp hb).1
  unfold bitSet
  rw [List.getElem?_drop, List.getElem?_drop, getElem?_overwrite hlt]
  by_cases hbyte : j / 8 = i / 8
  · have hlt8 : j % 8 < 8 := Nat.mod_lt _ (by decide)
    rw [if_pos (by simp only [List.length_singleton]; omega), hbyte, Nat.sub_self,
      List.getElem?_singleton, if_pos rfl, hb, Option.getD_some, Option.getD_some,
      getLsbD_or_two_pow _ _ _ hlt8]
    congr 1
    rw [decide_eq_decide]
    omega
  · rw [if_neg (by simp only [List.length_singleton]; omega)]
    rw [show decide (j = i) = false by simp; omega, Bool.or_false]

theorem bitSet_drop_congr {l l' : List (BitVec 8)} {pos i : Nat}
    (h : l[pos + i / 8]? = l'[pos + i / 8]?) :
    bitSet (l.drop pos) i = bitSet (l'.drop pos) i := by
  unfold bitSet
  rw [List.getElem?_drop, List.getElem?_drop, h]

end Bitmap
