import Mathlib.Order.Lattice

/-!
# Comparisons that agree with an order

Six comparison relations are consistent when they are those of one linear order
on the classes of the equality they come with. Relations that compare the values
of a key in a linear order are consistent.
-/

namespace OrderByKey

variable {α κ : Type*}

structure Comparisons (α : Type*) where
  eq : α → α → Prop
  ne : α → α → Prop
  lt : α → α → Prop
  le : α → α → Prop
  gt : α → α → Prop
  ge : α → α → Prop

/-- The comparisons are those of one linear order up to `eq`. -/
structure Comparisons.Consistent (r : Comparisons α) : Prop where
  exactly_one : ∀ a b, (r.lt a b ∧ ¬r.eq a b ∧ ¬r.lt b a) ∨
    (¬r.lt a b ∧ r.eq a b ∧ ¬r.lt b a) ∨ (¬r.lt a b ∧ ¬r.eq a b ∧ r.lt b a)
  ne_iff : ∀ a b, r.ne a b ↔ ¬r.eq a b
  le_iff : ∀ a b, r.le a b ↔ r.lt a b ∨ r.eq a b
  gt_iff : ∀ a b, r.gt a b ↔ r.lt b a
  ge_iff : ∀ a b, r.ge a b ↔ r.lt b a ∨ r.eq a b
  lt_trans : ∀ a b c, r.lt a b → r.lt b c → r.lt a c
  eq_equivalence : Equivalence r.eq
  lt_congr : ∀ a a' b b', r.eq a a' → r.eq b b' → (r.lt a b ↔ r.lt a' b')

structure Comparisons.ByKey [LinearOrder κ] (r : Comparisons α) (key : α → κ) : Prop where
  eq_iff : ∀ a b, r.eq a b ↔ key a = key b
  ne_iff : ∀ a b, r.ne a b ↔ key a ≠ key b
  lt_iff : ∀ a b, r.lt a b ↔ key a < key b
  le_iff : ∀ a b, r.le a b ↔ key a ≤ key b
  gt_iff : ∀ a b, r.gt a b ↔ key b < key a
  ge_iff : ∀ a b, r.ge a b ↔ key b ≤ key a

theorem Comparisons.ByKey.consistent [LinearOrder κ] {r : Comparisons α} {key : α → κ}
    (h : r.ByKey key) : r.Consistent where
  exactly_one := by
    intro a b
    rw [h.lt_iff, h.lt_iff, h.eq_iff]
    rcases lt_trichotomy (key a) (key b) with hlt | heq | hgt
    · exact .inl ⟨hlt, hlt.ne, hlt.not_gt⟩
    · exact .inr (.inl ⟨heq.not_lt, heq, heq.not_gt⟩)
    · exact .inr (.inr ⟨hgt.not_gt, hgt.ne', hgt⟩)
  ne_iff a b := by rw [h.ne_iff, h.eq_iff]
  le_iff a b := by rw [h.le_iff, h.lt_iff, h.eq_iff, le_iff_lt_or_eq]
  gt_iff a b := by rw [h.gt_iff, h.lt_iff]
  ge_iff a b := by rw [h.ge_iff, h.lt_iff, h.eq_iff, le_iff_lt_or_eq, eq_comm]
  lt_trans a b c hab hbc :=
    (h.lt_iff a c).mpr (((h.lt_iff a b).mp hab).trans ((h.lt_iff b c).mp hbc))
  eq_equivalence :=
    { refl := fun a => (h.eq_iff a a).mpr rfl
      symm := fun hab => (h.eq_iff _ _).mpr ((h.eq_iff _ _).mp hab).symm
      trans := fun hab hbc =>
        (h.eq_iff _ _).mpr (((h.eq_iff _ _).mp hab).trans ((h.eq_iff _ _).mp hbc)) }
  lt_congr a a' b b' ha hb := by
    rw [h.lt_iff, h.lt_iff, (h.eq_iff a a').mp ha, (h.eq_iff b b').mp hb]

end OrderByKey
