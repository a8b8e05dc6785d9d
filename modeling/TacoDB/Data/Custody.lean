import Mathlib.Algebra.Order.Group.Multiset
import Mathlib.Data.List.ReduceOption
import Mathlib.Tactic.Abel

/-!
# Custody

Things are given to holders, each of which has at most one of them at a time. A holder passes
what it has to another one, or gives it up: what is given up is discharged or handed out. A
`Custody` records where things have gone, and carries the proof that nothing is lost and
nothing is there twice: what was given is what was discharged, what was handed out and what
the holders have.
-/

variable {α : Type*}

def bag (l : List (Option α)) : Multiset α := (l.reduceOption : Multiset α)

namespace Bag

def one (x : Option α) : Multiset α := (x.toList : Multiset α)

@[simp] theorem one_none : one (none : Option α) = 0 := rfl

@[simp] theorem one_some (a : α) : one (some a) = {a} := rfl

def has (l : List (Option α)) (i : Nat) : Option α := l[i]?.join

@[simp] theorem bag_nil : bag ([] : List (Option α)) = 0 := rfl

theorem bag_cons (x : Option α) (l : List (Option α)) : bag (x :: l) = one x + bag l := by
  cases x with
  | none => rw [bag, List.reduceOption_cons_of_none, one_none, zero_add, bag]
  | some a => rw [bag, List.reduceOption_cons_of_some, one_some, Multiset.singleton_add]; rfl

theorem bag_append (l m : List (Option α)) : bag (l ++ m) = bag l + bag m := by
  rw [bag, List.reduceOption_append]
  rfl

theorem bag_set {l : List (Option α)} {i : Nat} (hi : i < l.length) (y : Option α) :
    bag (l.set i y) + one (has l i) = bag l + one y := by
  induction l generalizing i with
  | nil => cases hi
  | cons x l ih =>
      cases i with
      | zero =>
          rw [List.set_cons_zero, bag_cons, bag_cons, has, List.getElem?_cons_zero, Option.join_some,
            add_right_comm, add_comm (one y), add_right_comm, add_comm (one x)]
      | succ i =>
          have hrest := ih (Nat.lt_of_succ_lt_succ hi)
          rw [List.set_cons_succ, bag_cons, bag_cons, has, List.getElem?_cons_succ, add_assoc,
            add_assoc, ← hrest]
          rfl

theorem bag_set_none (l : List (Option α)) (i : Nat) :
    bag (l.set i none) + one (has l i) = bag l := by
  rcases Nat.lt_or_ge i l.length with hi | hi
  · rw [bag_set hi, one_none, add_zero]
  · rw [List.set_eq_of_length_le hi, has, List.getElem?_eq_none hi, Option.join_none, one_none,
      add_zero]

theorem has_set_self {l : List (Option α)} {i : Nat} (hi : i < l.length) (y : Option α) :
    has (l.set i y) i = y := by
  rw [has, List.getElem?_set_self hi, Option.join_some]

theorem has_set_ne {l : List (Option α)} {i j : Nat} (h : i ≠ j) (y : Option α) :
    has (l.set i y) j = has l j := by
  rw [has, List.getElem?_set_ne h, has]

theorem has_append_left {l m : List (Option α)} {i : Nat} (hi : i < l.length) :
    has (l ++ m) i = has l i := by
  rw [has, List.getElem?_append_left hi, has]

theorem has_append_length (l : List (Option α)) (x : Option α) : has (l ++ [x]) l.length = x := by
  rw [has, List.getElem?_concat_length, Option.join_some]

theorem append_set_length (l : List (Option α)) (x y : Option α) :
    (l ++ [x]).set l.length y = l ++ [y] := by
  rw [List.set_append_right _ _ (le_refl _), Nat.sub_self, List.set_cons_zero]

theorem mem_bag_iff {l : List (Option α)} {a : α} : a ∈ bag l ↔ ∃ i, has l i = some a := by
  rw [bag, Multiset.mem_coe, List.reduceOption_mem_iff, List.mem_iff_getElem?]
  exact exists_congr fun i => by rw [has, Option.join_eq_some_iff]

/-- When no thing is there twice, different holders have different things. -/
theorem eq_of_nodup {l : List (Option α)} (h : (bag l).Nodup) {i j : Nat} {a : α}
    (hi : has l i = some a) (hj : has l j = some a) : i = j := by
  by_contra hne
  have hbag := bag_set_none l i
  rw [hi, one_some] at hbag
  rw [← hbag, add_comm, Multiset.singleton_add, Multiset.nodup_cons] at h
  exact h.1 (mem_bag_iff.mpr ⟨j, by rw [has_set_ne hne, hj]⟩)

theorem bag_eq_zero {l : List (Option α)} (h : ∀ i, has l i = none) : bag l = 0 := by
  refine Multiset.eq_zero_of_forall_notMem fun a ha => ?_
  obtain ⟨i, hi⟩ := mem_bag_iff.mp ha
  rw [h i] at hi
  cases hi

end Bag

open Bag

/-- The holders, what was given to them, and what was discharged and handed out by them. -/
structure Custody (α : Type*) where
  holders : List (Option α)
  given : Multiset α
  discharged : Multiset α
  handedOut : Multiset α
  balanced : given = discharged + handedOut + bag holders

namespace Custody

def empty : Custody α := ⟨[], 0, 0, 0, rfl⟩

variable (c : Custody α)

@[simps]
def give (x : Option α) : Custody α where
  holders := c.holders ++ [x]
  given := c.given + one x
  discharged := c.discharged
  handedOut := c.handedOut
  balanced := by
    rw [c.balanced, bag_append, bag_cons, bag_nil, add_zero, add_assoc, add_assoc]

/-- Holder `i` gives up what it has, which is discharged. -/
@[simps]
def discharge (i : Nat) : Custody α where
  holders := c.holders.set i none
  given := c.given
  discharged := c.discharged + one (has c.holders i)
  handedOut := c.handedOut
  balanced := by
    rw [c.balanced, ← bag_set_none c.holders i]
    abel

/-- Holder `i` gives up what it has, which is handed out. -/
@[simps]
def handOut (i : Nat) : Custody α where
  holders := c.holders.set i none
  given := c.given
  discharged := c.discharged
  handedOut := c.handedOut + one (has c.holders i)
  balanced := by
    rw [c.balanced, ← bag_set_none c.holders i]
    abel

theorem bag_pass {l : List (Option α)} {i j : Nat} (hj : j < l.length) (hnone : has l j = none) :
    bag ((l.set j (has l i)).set i none) = bag l := by
  have htaken := bag_set hj (has l i)
  have hleft := bag_set_none (l.set j (has l i)) i
  rw [hnone, one_none, add_zero] at htaken
  rw [htaken] at hleft
  by_cases hij : i = j
  · subst hij
    rw [hnone] at hleft ⊢
    rw [has_set_self hj, one_none, add_zero, add_zero] at hleft
    exact hleft
  · rw [has_set_ne (Ne.symm hij)] at hleft
    exact add_right_cancel hleft

/-- Holder `j`, which has nothing, takes what holder `i` has. -/
@[simps]
def pass (i j : Nat) (hj : j < c.holders.length) (hnone : has c.holders j = none) :
    Custody α where
  holders := (c.holders.set j (has c.holders i)).set i none
  given := c.given
  discharged := c.discharged
  handedOut := c.handedOut
  balanced := by rw [bag_pass hj hnone, c.balanced]

variable {c}

@[simp] theorem bag_give (x : Option α) : bag (c.give x).holders = bag c.holders + one x := by
  rw [give_holders, bag_append, bag_cons, bag_nil, add_zero]

theorem bag_set_none_le (l : List (Option α)) (i : Nat) : bag (l.set i none) ≤ bag l := by
  rw [← bag_set_none l i]
  exact Multiset.le_add_right _ _

theorem bag_le_given : bag c.holders ≤ c.given := by
  rw [c.balanced]
  exact Multiset.le_add_left _ _

theorem nodup_of_le_add {b b' : Multiset α} {x : Option α} (hle : b' ≤ b + one x)
    (h : b.Nodup) (hx : ∀ a ∈ x, a ∉ b) : b'.Nodup := by
  refine Multiset.nodup_of_le hle ?_
  cases x with
  | none => rwa [one_none, add_zero]
  | some a =>
      rw [one_some, add_comm, Multiset.singleton_add, Multiset.nodup_cons]
      exact ⟨hx a rfl, h⟩

theorem given_eq (hnone : ∀ i, has c.holders i = none) : c.given = c.discharged + c.handedOut := by
  rw [c.balanced, bag_eq_zero hnone, add_zero]

/-- In the end what was given once was either handed out or discharged, once. -/
theorem discharged_once [DecidableEq α] (h : c.given.Nodup) (hnone : ∀ i, has c.holders i = none)
    {a : α} (ha : a ∈ c.given) :
    (a ∉ c.handedOut → c.discharged.count a = 1) ∧ (a ∈ c.handedOut → a ∉ c.discharged) := by
  have hcount := congrArg (Multiset.count a) (given_eq hnone)
  rw [Multiset.count_eq_one_of_mem h ha, Multiset.count_add] at hcount
  constructor
  · intro hnot
    rw [Multiset.count_eq_zero_of_notMem hnot, add_zero] at hcount
    exact hcount.symm
  · intro hmem hdis
    have hpos := Multiset.count_pos.mpr hmem
    have hpos' := Multiset.count_pos.mpr hdis
    omega

end Custody
