import Mathlib.Data.List.Basic
import TacoDB.Data.Slice

/-!
# Append-only slot heaps

A heap is a list of files and a file a list of slots. A slot is named by the index of its
file and its index in there, and it never moves: slots are appended, have their leading
cells replaced, or go out of use, but they are not taken away.
-/

namespace SlotHeap

open Buffer

structure Slot (α : Type*) where
  live : Bool
  content : List α

variable {α : Type*}

def slotAt (h : List (List (Slot α))) (k i : Nat) : Option (Slot α) := h[k]?.bind (·[i]?)

def append (h : List (List (Slot α))) (k : Nat) (cells : List α) : List (List (Slot α)) :=
  h.modify k (· ++ [⟨true, cells⟩])

def change (h : List (List (Slot α))) (k i : Nat) (g : Slot α → Slot α) :
    List (List (Slot α)) :=
  h.modify k (·.modify i g)

section

variable {h : List (List (Slot α))} {k i : Nat}

theorem slotAt_concat (h : List (List (Slot α))) (k i : Nat) :
    slotAt (h ++ [[]]) k i = slotAt h k i := by
  unfold slotAt
  rcases Nat.lt_trichotomy k h.length with hk | rfl | hk
  · rw [List.getElem?_append_left hk]
  · simp
  · rw [List.getElem?_eq_none (by simp; omega), List.getElem?_eq_none (by omega)]

theorem slotAt_modify_of_ne {k' : Nat} (hk : k' ≠ k) (g : List (Slot α) → List (Slot α)) (i : Nat) :
    slotAt (h.modify k g) k' i = slotAt h k' i := by
  rw [slotAt, List.getElem?_modify_ne g h hk.symm, slotAt]

theorem slotAt_append {l : List (Slot α)} (hk : h[k]? = some l) (cells : List α)
    (k' i' : Nat) :
    slotAt (append h k cells) k' i' =
      if k' = k ∧ i' = l.length then some ⟨true, cells⟩ else slotAt h k' i' := by
  by_cases hkk : k' = k
  · subst hkk
    rw [slotAt, append, List.getElem?_modify_eq, hk, slotAt, hk]
    simp only [Option.map_eq_map, Option.map_some, Option.bind_some]
    rcases Nat.lt_trichotomy i' l.length with hi | rfl | hi
    · rw [if_neg (by omega), List.getElem?_append_left hi]
    · simp
    · rw [if_neg (by omega), List.getElem?_eq_none (by simp; omega),
        List.getElem?_eq_none (by omega)]
  · rw [append, slotAt_modify_of_ne hkk, if_neg (fun h' => hkk h'.1)]

theorem slotAt_change (g : Slot α → Slot α) (k' i' : Nat) :
    slotAt (change h k i g) k' i' =
      if k' = k ∧ i' = i then (slotAt h k i).map g else slotAt h k' i' := by
  by_cases hkk : k' = k
  · subst hkk
    rw [slotAt, change, List.getElem?_modify_eq, slotAt, slotAt]
    cases h[k']? with
    | none => simp
    | some l =>
        simp only [Option.map_eq_map, Option.map_some, Option.bind_some]
        by_cases hii : i' = i
        · subst hii
          rw [List.getElem?_modify_eq, if_pos ⟨trivial, rfl⟩, Option.map_eq_map]
        · rw [List.getElem?_modify_ne g l (Ne.symm hii), if_neg (fun h' => hii h'.2)]
  · rw [change, slotAt_modify_of_ne hkk, if_neg (fun h' => hkk h'.1)]

theorem slotAt_length {l : List (Slot α)} (hk : h[k]? = some l) : slotAt h k l.length = none := by
  rw [slotAt, hk, Option.bind_some, List.getElem?_eq_none (Nat.le_refl _)]

end

end SlotHeap
