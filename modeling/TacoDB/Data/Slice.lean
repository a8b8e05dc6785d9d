import Mathlib.Data.List.Basic
import Mathlib.Tactic.SplitIfs

/-!
# Slices of a growable buffer

A growable buffer is a list of cells with the three operations raw memory has:
reading a run of cells (`slice`), overwriting a run in place (`overwrite`) and
changing the length, new cells being filled with a default (`resize`). The
lemmas say which cells each operation leaves alone, first cell by cell through
`getElem?` and then for whole slices.
-/

namespace Buffer

variable {α : Type*}

def slice (l : List α) (i n : Nat) : List α := (l.drop i).take n

/-- The cells of `bs` written over those of `l` from index `i` on. -/
def overwrite (l : List α) (i : Nat) (bs : List α) : List α :=
  l.take i ++ bs ++ l.drop (i + bs.length)

/-- The buffer cut or extended to length `n`, new cells being `z`. -/
def resize (l : List α) (n : Nat) (z : α) : List α :=
  l.take n ++ List.replicate (n - l.length) z

theorem length_slice {l : List α} {i n : Nat} (h : i + n ≤ l.length) :
    (slice l i n).length = n := by
  simp only [slice, List.length_take, List.length_drop]
  omega

theorem getElem?_slice (l : List α) (i n j : Nat) :
    (slice l i n)[j]? = if j < n then l[i + j]? else none := by
  unfold slice
  rw [List.getElem?_take]
  split_ifs with hj
  · rw [List.getElem?_drop]
  · rfl

theorem length_overwrite {l bs : List α} {i : Nat} (h : i + bs.length ≤ l.length) :
    (overwrite l i bs).length = l.length := by
  simp only [overwrite, List.length_append, List.length_take, List.length_drop]
  omega

theorem getElem?_overwrite {l bs : List α} {i : Nat} (h : i + bs.length ≤ l.length)
    (j : Nat) :
    (overwrite l i bs)[j]? =
      if i ≤ j ∧ j < i + bs.length then bs[j - i]? else l[j]? := by
  have hi : (l.take i).length = i := by
    rw [List.length_take]
    omega
  unfold overwrite
  by_cases hlt : j < i
  · rw [if_neg (by omega), List.append_assoc, List.getElem?_append_left (by omega),
      List.getElem?_take_of_lt hlt]
  · by_cases hin : j < i + bs.length
    · rw [if_pos (by omega), List.append_assoc, List.getElem?_append_right (by omega),
        hi, List.getElem?_append_left (by omega)]
    · rw [if_neg (by omega), List.getElem?_append_right (by simp only [List.length_append]; omega),
        List.getElem?_drop]
      congr 1
      simp only [List.length_append]
      omega

theorem slice_ext {l l' : List α} {i i' n : Nat}
    (h : ∀ j < n, l[i + j]? = l'[i' + j]?) : slice l i n = slice l' i' n := by
  apply List.ext_getElem?
  intro j
  rw [getElem?_slice, getElem?_slice]
  split_ifs with hj
  · exact h j hj
  · rfl

theorem slice_overwrite_self {l : List α} (bs : List α) {i : Nat} (h : i + bs.length ≤ l.length) :
    slice (overwrite l i bs) i bs.length = bs := by
  apply List.ext_getElem?
  intro j
  rw [getElem?_slice, getElem?_overwrite h]
  by_cases hj : j < bs.length
  · rw [if_pos hj, if_pos (by omega), Nat.add_sub_cancel_left]
  · rw [if_neg hj, List.getElem?_eq_none (by omega)]

theorem slice_overwrite_of_disjoint {l bs : List α} {i j n : Nat}
    (h : i + bs.length ≤ l.length) (hd : j + n ≤ i ∨ i + bs.length ≤ j) :
    slice (overwrite l i bs) j n = slice l j n := by
  apply slice_ext
  intro k hk
  rw [getElem?_overwrite h, if_neg (by omega)]

@[simp] theorem length_resize (l : List α) (n : Nat) (z : α) :
    (resize l n z).length = n := by
  simp only [resize, List.length_append, List.length_take, List.length_replicate]
  omega

theorem resize_of_le {l : List α} {n : Nat} (h : n ≤ l.length) (z : α) :
    resize l n z = l.take n := by
  rw [resize, Nat.sub_eq_zero_of_le h, List.replicate_zero, List.append_nil]

theorem getElem?_resize (l : List α) {n j : Nat} (z : α) (hj : j < n) :
    (resize l n z)[j]? = if j < l.length then l[j]? else some z := by
  unfold resize
  by_cases hl : j < l.length
  · rw [if_pos hl, List.getElem?_append_left (by rw [List.length_take]; omega),
      List.getElem?_take_of_lt hj]
  · rw [if_neg hl, List.getElem?_append_right (by rw [List.length_take]; omega),
      List.getElem?_replicate, if_pos (by rw [List.length_take]; omega)]

theorem slice_resize_of_le {l : List α} {n j m : Nat} (z : α)
    (hl : j + m ≤ l.length) (hn : j + m ≤ n) :
    slice (resize l n z) j m = slice l j m := by
  apply slice_ext
  intro k hk
  rw [getElem?_resize l z (by omega), if_pos (by omega)]

theorem take_resize {l : List α} {n k : Nat} (z : α) (hl : k ≤ l.length) (hn : k ≤ n) :
    (resize l n z).take k = l.take k := by
  have := slice_resize_of_le (l := l) (j := 0) (m := k) z (by omega) (by omega : 0 + k ≤ n)
  simpa [slice] using this

/-- Extending a buffer to make room for `bs` behind position `p` and writing `bs`
there appends the gap and `bs`. -/
theorem overwrite_resize_of_le {l bs : List α} {p : Nat} (z : α) (hp : l.length ≤ p) :
    overwrite (resize l (p + bs.length) z) p bs =
      l ++ List.replicate (p - l.length) z ++ bs := by
  have hlen : (resize l (p + bs.length) z).length = p + bs.length := length_resize _ _ _
  unfold overwrite
  rw [List.drop_eq_nil_of_le (by omega), List.append_nil]
  congr 1
  apply List.ext_getElem?
  intro j
  rcases Nat.lt_or_ge j p with hj | hj
  · rw [List.getElem?_take_of_lt hj, getElem?_resize l z (by omega)]
    split_ifs with hl
    · rw [List.getElem?_append_left hl]
    · rw [List.getElem?_append_right (by omega), List.getElem?_replicate, if_pos (by omega)]
  · rw [List.getElem?_eq_none (by rw [List.length_take]; omega),
      List.getElem?_eq_none (by rw [List.length_append, List.length_replicate]; omega)]

theorem overwrite_resize_length (l bs : List α) (z : α) :
    overwrite (resize l bs.length z) 0 bs = bs := by
  rw [overwrite, List.take_zero, List.nil_append,
    List.drop_of_length_le (by simp), List.append_nil]

theorem slice_append_left {l : List α} {i n : Nat} (r : List α) (h : i + n ≤ l.length) :
    slice (l ++ r) i n = slice l i n := by
  apply slice_ext
  intro k hk
  rw [List.getElem?_append_left (by omega)]

theorem slice_drop (l : List α) (k i n : Nat) :
    slice (l.drop k) i n = slice l (k + i) n := by
  simp [slice, List.drop_drop]

end Buffer
