import Mathlib.Data.List.Basic
import Mathlib.Data.List.Induction
import Mathlib.Order.Nat

/-!
# Ranks and stable partitions

The rank of an index in a list is the number of earlier elements with a given
property, and `indices p l` lists the indices of the elements with property `p`
in increasing order. The two are inverse to each other: the `j`-th entry of
`indices p l` is the element of rank `j`.

The last section is about sorting the indices of a list into three classes that
exclude each other. A list that holds every index at the place its class and
its rank give it is the concatenation of the three index lists.
-/

namespace Rank

variable {α : Type*}

/-- The number of elements before index `i` with property `p`. -/
def rank (p : α → Bool) (l : List α) (i : Nat) : Nat := (l.take i).countP p

def indices (p : α → Bool) (l : List α) : List Nat :=
  (List.range l.length).filter fun i => l[i]?.any p

theorem rank_append {p : α → Bool} {l : List α} {i : Nat} (hi : i ≤ l.length)
    (r : List α) : rank p (l ++ r) i = rank p l i := by
  unfold rank
  rw [List.take_append_of_le_length hi]

theorem rank_length (p : α → Bool) (l : List α) : rank p l l.length = l.countP p := by
  unfold rank
  rw [List.take_length]

/-- A property of the elements that a map does not change has the same ranks
after it. -/
theorem rank_map {β : Type*} {p : α → Bool} {q : β → Bool} {f : α → β} {l : List α}
    (h : ∀ x ∈ l, q (f x) = p x) (i : Nat) : rank q (l.map f) i = rank p l i := by
  unfold rank
  rw [← List.map_take, List.countP_map]
  apply List.countP_congr
  intro x hx
  simp [h x (List.mem_of_mem_take hx)]

theorem mem_indices {p : α → Bool} {l : List α} {i : Nat} :
    i ∈ indices p l ↔ ∃ x, l[i]? = some x ∧ p x = true := by
  unfold indices
  rw [List.mem_filter, List.mem_range, Option.any_eq_true]
  constructor
  · rintro ⟨-, x, hx, hp⟩
    exact ⟨x, hx, hp⟩
  · rintro ⟨x, hx, hp⟩
    exact ⟨(List.getElem?_eq_some_iff.mp hx).1, x, hx, hp⟩

theorem nodup_indices (p : α → Bool) (l : List α) : (indices p l).Nodup :=
  List.nodup_range.filter _

theorem indices_concat (p : α → Bool) (l : List α) (x : α) :
    indices p (l ++ [x]) = indices p l ++ if p x then [l.length] else [] := by
  have hprefix : (List.range l.length).filter (fun i => (l ++ [x])[i]?.any p) =
      indices p l := by
    apply List.filter_congr
    intro i hi
    rw [List.getElem?_append_left (List.mem_range.mp hi)]
  have hlast : (l ++ [x])[l.length]? = some x := List.getElem?_concat_length
  conv_lhs => unfold indices
  rw [List.length_append, List.length_singleton, List.range_succ, List.filter_append,
    hprefix, List.filter_singleton, hlast]
  simp

theorem indices_map {β : Type*} {p : α → Bool} {q : β → Bool} {f : α → β} {l : List α}
    (h : ∀ x ∈ l, q (f x) = p x) : indices q (l.map f) = indices p l := by
  unfold indices
  rw [List.length_map]
  apply List.filter_congr
  intro i hi
  have hx := List.getElem?_eq_getElem (List.mem_range.mp hi)
  rw [List.getElem?_map, hx, Option.map_some, Option.any_some, Option.any_some,
    h _ (List.getElem_mem _)]

theorem length_indices (p : α → Bool) (l : List α) :
    (indices p l).length = l.countP p := by
  induction l using List.reverseRecOn with
  | nil => rfl
  | append_singleton l x ih =>
      rw [indices_concat, List.length_append, ih, List.countP_append]
      cases hp : p x <;> simp [hp]

theorem getElem?_indices_eq_some {p : α → Bool} {l : List α} {i j : Nat} :
    (indices p l)[j]? = some i ↔
      (∃ x, l[i]? = some x ∧ p x = true) ∧ rank p l i = j := by
  induction l using List.reverseRecOn with
  | nil => simp [indices]
  | append_singleton l x ih =>
      rw [indices_concat]
      rcases lt_trichotomy i l.length with hi | rfl | hi
      · -- an index of the old prefix: only its entries can be `i`
        rw [List.getElem?_append_left hi, rank_append hi.le, ← ih]
        rcases lt_or_ge j (indices p l).length with hj | hj
        · rw [List.getElem?_append_left hj]
        · rw [List.getElem?_append_right hj, List.getElem?_eq_none hj]
          cases p x
          · simp
          · rw [if_pos rfl, List.getElem?_singleton]
            split
            · simp only [Option.some.injEq, reduceCtorEq, iff_false]
              omega
            · rfl
      · -- the new index: its rank is the number of old entries
        have hold : (indices p l)[j]? ≠ some l.length := by
          intro h
          have := mem_indices.mp (List.mem_of_getElem? h)
          simp at this
        rw [rank_append le_rfl, rank_length, ← length_indices, List.getElem?_concat_length]
        rcases lt_or_ge j (indices p l).length with hj | hj
        · rw [List.getElem?_append_left hj]
          constructor
          · intro h
            exact absurd h hold
          · rintro ⟨-, rfl⟩
            exact absurd hj (lt_irrefl _)
        · rw [List.getElem?_append_right hj]
          cases hp : p x
          · simp [hp]
          · simp only [if_true, List.getElem?_singleton, Option.some.injEq,
              exists_eq_left', hp, true_and]
            split
            · simp only [true_iff]
              omega
            · simp only [reduceCtorEq, false_iff]
              omega
      · -- past the end
        have hnone : (l ++ [x])[i]? = none := by
          apply List.getElem?_eq_none
          rw [List.length_append, List.length_singleton]
          omega
        rw [hnone]
        constructor
        · intro h
          rw [← indices_concat] at h
          obtain ⟨y, hy, -⟩ := mem_indices.mp (List.mem_of_getElem? h)
          rw [hnone] at hy
          cases hy
        · rintro ⟨⟨y, hy, -⟩, -⟩
          cases hy

theorem getElem?_indices_rank {p : α → Bool} {l : List α} {i : Nat} {x : α}
    (hx : l[i]? = some x) (hp : p x = true) : (indices p l)[rank p l i]? = some i :=
  getElem?_indices_eq_some.mpr ⟨⟨x, hx, hp⟩, rfl⟩

theorem rank_lt_countP {p : α → Bool} {l : List α} {i : Nat} {x : α}
    (hx : l[i]? = some x) (hp : p x = true) : rank p l i < l.countP p := by
  rw [← length_indices]
  exact (List.getElem?_eq_some_iff.mp (getElem?_indices_rank hx hp)).1

theorem rank_injective {p : α → Bool} {l : List α} {i j : Nat} {x y : α}
    (hx : l[i]? = some x) (hp : p x = true) (hy : l[j]? = some y) (hq : p y = true)
    (h : rank p l i = rank p l j) : i = j := by
  have hi := getElem?_indices_rank hx hp
  have hj := getElem?_indices_rank hy hq
  rw [h, hj] at hi
  exact (Option.some.inj hi).symm

section Partition

variable (p q r : α → Bool)

/-- The place of index `i` in the three-way partition: the classes one after
the other, each in increasing order. -/
def place (l : List α) (i : Nat) (x : α) : Nat :=
  if p x then rank p l i
  else if q x then l.countP p + rank q l i
  else l.countP p + l.countP q + rank r l i

def partition (l : List α) : List Nat :=
  indices p l ++ indices q l ++ indices r l

variable {p q r}

theorem length_partition (l : List α) :
    (partition p q r l).length = l.countP p + l.countP q + l.countP r := by
  rw [partition, List.length_append, List.length_append, length_indices, length_indices,
    length_indices]

theorem place_of_getElem?_partition {l : List α} {i j : Nat}
    (hpq : ∀ x ∈ l, p x = true → q x = false)
    (hr : ∀ x ∈ l, r x = true ↔ p x = false ∧ q x = false)
    (h : (partition p q r l)[j]? = some i) :
    ∃ x, l[i]? = some x ∧ place p q r l i x = j := by
  unfold partition at h
  rcases lt_or_ge j (l.countP p) with hj | hj
  · rw [List.append_assoc, List.getElem?_append_left (by rwa [length_indices]),
      getElem?_indices_eq_some] at h
    obtain ⟨⟨x, hx, hp⟩, hrank⟩ := h
    refine ⟨x, hx, ?_⟩
    rw [place, if_pos hp, hrank]
  rcases lt_or_ge j (l.countP p + l.countP q) with hj' | hj'
  · rw [List.append_assoc, List.getElem?_append_right (by rwa [length_indices]),
      length_indices, List.getElem?_append_left (by rw [length_indices]; omega),
      getElem?_indices_eq_some] at h
    obtain ⟨⟨x, hx, hq⟩, hrank⟩ := h
    have hp : ¬ p x = true := by
      intro hp
      rw [hpq x (List.mem_of_getElem? hx) hp] at hq
      cases hq
    refine ⟨x, hx, ?_⟩
    rw [place, if_neg hp, if_pos hq]
    omega
  · rw [List.getElem?_append_right (by
        rw [List.length_append, length_indices, length_indices]; exact hj'),
      List.length_append, length_indices, length_indices, getElem?_indices_eq_some] at h
    obtain ⟨⟨x, hx, hrx⟩, hrank⟩ := h
    obtain ⟨hp, hq⟩ := (hr x (List.mem_of_getElem? hx)).mp hrx
    refine ⟨x, hx, ?_⟩
    rw [place, hp, hq]
    simp only [Bool.false_eq_true, if_false]
    omega

theorem getElem?_partition_place {l : List α} {i : Nat} {x : α}
    (hr : ∀ x ∈ l, r x = true ↔ p x = false ∧ q x = false) (hx : l[i]? = some x) :
    (partition p q r l)[place p q r l i x]? = some i := by
  unfold partition place
  cases hp : p x with
  | true =>
      have hlt := rank_lt_countP hx hp
      rw [if_pos rfl, List.append_assoc,
        List.getElem?_append_left (by rwa [length_indices]), getElem?_indices_rank hx hp]
  | false =>
      cases hq : q x with
      | true =>
          have hlt := rank_lt_countP hx hq
          rw [if_neg Bool.false_ne_true, if_pos rfl, List.append_assoc,
            List.getElem?_append_right (by rw [length_indices]; omega), length_indices,
            Nat.add_sub_cancel_left, List.getElem?_append_left (by rwa [length_indices]),
            getElem?_indices_rank hx hq]
      | false =>
          have hrx : r x = true := (hr x (List.mem_of_getElem? hx)).mpr ⟨hp, hq⟩
          rw [if_neg Bool.false_ne_true, if_neg Bool.false_ne_true,
            List.getElem?_append_right (by
              rw [List.length_append, length_indices, length_indices]; omega),
            List.length_append, length_indices, length_indices, Nat.add_sub_cancel_left,
            getElem?_indices_rank hx hrx]

theorem length_eq_of_classes {l : List α}
    (hpq : ∀ x ∈ l, p x = true → q x = false)
    (hr : ∀ x ∈ l, r x = true ↔ p x = false ∧ q x = false) :
    l.countP p + l.countP q + l.countP r = l.length := by
  induction l with
  | nil => rfl
  | cons x l ih =>
      have ihl := ih (fun y hy => hpq y (List.mem_cons_of_mem x hy))
        (fun y hy => hr y (List.mem_cons_of_mem x hy))
      have hx := hpq x List.mem_cons_self
      have hrx := hr x List.mem_cons_self
      rw [List.countP_cons, List.countP_cons, List.countP_cons, List.length_cons]
      cases hp : p x <;> cases hq : q x <;> simp_all <;> omega

theorem eq_partition {l : List α} {m : List Nat}
    (hpq : ∀ x ∈ l, p x = true → q x = false)
    (hr : ∀ x ∈ l, r x = true ↔ p x = false ∧ q x = false)
    (hlen : m.length = l.length)
    (hm : ∀ i x, l[i]? = some x → m[place p q r l i x]? = some i) :
    m = partition p q r l := by
  have hlen' : (partition p q r l).length = l.length := by
    rw [length_partition, length_eq_of_classes hpq hr]
  apply List.ext_getElem?
  intro j
  rcases h : (partition p q r l)[j]? with _ | i
  · rw [List.getElem?_eq_none_iff] at h ⊢
    omega
  · obtain ⟨x, hx, hplace⟩ := place_of_getElem?_partition hpq hr h
    rw [← hplace]
    exact hm i x hx

end Partition

end Rank
