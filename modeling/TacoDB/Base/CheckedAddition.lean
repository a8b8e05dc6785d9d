import TacoDB.Base.Core

/-!
# Checked addition

`AddWithCheck` is the overflow guard of the layout computation. Its test for a
positive left operand is the overflow test. The test for a negative one has the
two sides of a difference exchanged, and refuses sums that are representable. A
right operand that is not a value of the left type is converted before either
test sees it.
-/

namespace Taco

open TwosComplement

def Representable (w : Nat) (x : Int) : Prop := -2 ^ (w - 1) ≤ x ∧ x ≤ 2 ^ (w - 1) - 1

instance (w : Nat) (x : Int) : Decidable (Representable w x) :=
  inferInstanceAs (Decidable (_ ∧ _))

/-- The addition succeeds with the exact sum when this is representable, and fails
otherwise. -/
def ExactOrRefused (w : Nat) (left right : Int) : Prop :=
  addWithCheck w left right =
    if Representable w (left + right) then some (left + right) else none

/-- The test of `AddWithCheck` on a right operand of the type of the left one. -/
def Refused (w : Nat) (left r : Int) : Prop :=
  (left > 0 ∧ r > 2 ^ (w - 1) - 1 - left) ∨ (left < 0 ∧ r < left - -2 ^ (w - 1))

instance (w : Nat) (left r : Int) : Decidable (Refused w left r) :=
  inferInstanceAs (Decidable (_ ∨ _))

variable {w : Nat} {left right : Int}

theorem narrow_representable (hw : 0 < w) (x : Int) : Representable w (narrow w x) := by
  refine ⟨?_, Int.le_sub_one_of_lt (narrow_lt hw x)⟩
  have hmod := Int.emod_nonneg (x + 2 ^ (w - 1)) (Int.pow_pos (show (0 : Int) < 2 by decide) :
    (0 : Int) < 2 ^ w).ne'
  unfold narrow
  omega

theorem narrow_of_representable (hw : 0 < w) {x : Int} (h : Representable w x) :
    narrow w x = x :=
  narrow_of_mem hw h.1 (Int.lt_of_le_sub_one h.2)

theorem representable_of_not_refused {r : Int} (hleft : Representable w left)
    (hr : Representable w r) (h : ¬Refused w left r) : Representable w (left + r) := by
  unfold Refused at h
  unfold Representable at *
  omega

theorem addWithCheck_eq (hw : 0 < w) (hleft : Representable w left) (right : Int) :
    addWithCheck w left right =
      if Refused w left (narrow w right) then none else some (left + narrow w right) := by
  change (if Refused w left (narrow w right) then none else some (narrow w _)) = _
  by_cases h : Refused w left (narrow w right)
  · rw [if_pos h, if_pos h]
  · rw [if_neg h, if_neg h, narrow_of_representable hw
      (representable_of_not_refused hleft (narrow_representable hw right) h)]

/-- A value of the left type is refused in addition to the sums that are too large
exactly when the left operand is negative and the right one lies between the two
orders of the difference. -/
theorem refused_iff (hleft : Representable w left) (hright : Representable w right) :
    Refused w left right ↔ ¬Representable w (left + right) ∨
      (left < 0 ∧ -2 ^ (w - 1) - left ≤ right ∧ right < left - -2 ^ (w - 1)) := by
  unfold Refused
  unfold Representable at *
  omega

/-- For a left operand of the type and any right operand: the addition is exact or
refused when the right operand is a value of the type, other than one the
exchanged difference refuses beside a negative left one; or when it is no value of
the type, the sum is not one either, and the test refuses the converted operand. -/
theorem exactOrRefused_iff (hw : 0 < w) (hleft : Representable w left) :
    ExactOrRefused w left right ↔
      if Representable w right then
        ¬(left < 0 ∧ -2 ^ (w - 1) - left ≤ right ∧ right < left - -2 ^ (w - 1))
      else ¬Representable w (left + right) ∧ Refused w left (narrow w right) := by
  unfold ExactOrRefused
  rw [addWithCheck_eq hw hleft]
  by_cases hright : Representable w right
  · rw [if_pos hright, narrow_of_representable hw hright]
    by_cases hgap : left < 0 ∧ -2 ^ (w - 1) - left ≤ right ∧ right < left - -2 ^ (w - 1)
    · have hsum : Representable w (left + right) := by
        unfold Representable at *
        omega
      rw [if_pos ((refused_iff hleft hright).mpr (.inr hgap)), if_pos hsum]
      exact ⟨nofun, fun h => absurd hgap h⟩
    · have hrefused : Refused w left right ↔ ¬Representable w (left + right) := by
        rw [refused_iff hleft hright, or_iff_left hgap]
      refine ⟨fun _ => hgap, fun _ => ?_⟩
      by_cases hsum : Representable w (left + right)
      · rw [if_neg fun h => hrefused.mp h hsum, if_pos hsum]
      · rw [if_pos (hrefused.mpr hsum), if_neg hsum]
  · rw [if_neg hright]
    have hne : narrow w right ≠ right := fun h => hright (h ▸ narrow_representable hw right)
    by_cases href : Refused w left (narrow w right)
    · rw [if_pos href]
      by_cases hsum : Representable w (left + right)
      · rw [if_pos hsum]
        exact ⟨nofun, fun h => absurd hsum h.1⟩
      · rw [if_neg hsum]
        exact ⟨fun _ => ⟨hsum, href⟩, fun _ => rfl⟩
    · rw [if_neg href]
      constructor
      · intro h
        split at h
        · have := Option.some.inj h
          omega
        · cases h
      · exact fun h => absurd h.2 href

theorem exactOrRefused_iff_wide :
    ExactOrRefused 16 100 32700 ∧ ExactOrRefused 16 (-5) (-32768) ∧
      ExactOrRefused 16 1 98303 :=
  ⟨(exactOrRefused_iff (by decide) (by decide)).mpr (by decide),
    (exactOrRefused_iff (by decide) (by decide)).mpr (by decide),
    (exactOrRefused_iff (by decide) (by decide)).mpr (by decide)⟩

/-- Adding nothing to a negative number is refused. -/
theorem addWithCheck_refuses_zero :
    addWithCheck 16 (-1) 0 = none ∧ Representable 16 (-1 + 0) ∧ ¬ExactOrRefused 16 (-1) 0 := by
  unfold ExactOrRefused
  decide

end Taco
