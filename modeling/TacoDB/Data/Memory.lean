import TacoDB.Data.Slice

/-!
# Memories that writes are played back to

A memory gives a value to every cell. A write replaces a run of cells, and of several writes to
a cell the last one counts. A list of cells is a memory that holds a default behind its end, so
making the list longer by defaults is not a change of the memory.
-/

namespace Memory

open Buffer

variable {α : Type*}

def ofList (z : α) (l : List α) : Nat → α := fun i => (l[i]?).getD z

def patch (m : Nat → α) (off : Nat) (bs : List α) : Nat → α := fun i =>
  if off ≤ i then (bs[i - off]?).getD (m i) else m i

/-- The memory after writes that are made one after another, each a first cell and the values. -/
def replay (m : Nat → α) (writes : List (Nat × List α)) : Nat → α :=
  writes.foldl (fun m w => patch m w.1 w.2) m

def range (m : Nat → α) (off n : Nat) : List α := (List.range n).map fun j => m (off + j)

def Covers (w : Nat × List α) (i : Nat) : Prop := w.1 ≤ i ∧ i < w.1 + w.2.length

section Writes

variable {m : Nat → α} {i : Nat}

theorem patch_of_covers {w : Nat × List α} (h : Covers w i) :
    some (patch m w.1 w.2 i) = w.2[i - w.1]? := by
  obtain ⟨hle, hlt⟩ := h
  have hin : i - w.1 < w.2.length := by omega
  rw [patch, if_pos hle, List.getElem?_eq_getElem hin, Option.getD_some]

theorem patch_of_not_covers {w : Nat × List α} (h : ¬Covers w i) : patch m w.1 w.2 i = m i := by
  rw [patch]
  split
  · rename_i hle
    have hout : w.2.length ≤ i - w.1 := by
      by_contra hlt
      exact h ⟨hle, by omega⟩
    rw [List.getElem?_eq_none hout, Option.getD_none]
  · rfl

theorem replay_append (m : Nat → α) (ws ws' : List (Nat × List α)) :
    replay m (ws ++ ws') = replay (replay m ws) ws' := List.foldl_append

theorem replay_of_not_covers {ws : List (Nat × List α)} (h : ∀ w ∈ ws, ¬Covers w i) :
    replay m ws i = m i := by
  induction ws generalizing m with
  | nil => rfl
  | cons w ws ih =>
      have hrest : ∀ w' ∈ ws, ¬Covers w' i := fun w' hw' => h w' (List.mem_cons_of_mem w hw')
      calc replay m (w :: ws) i = replay (patch m w.1 w.2) ws i := rfl
        _ = patch m w.1 w.2 i := ih hrest
        _ = m i := patch_of_not_covers (h w List.mem_cons_self)

theorem replay_last {w : Nat × List α} (hw : Covers w i) {ws' : List (Nat × List α)}
    (hlast : ∀ w' ∈ ws', ¬Covers w' i) (ws : List (Nat × List α)) :
    some (replay m (ws ++ w :: ws') i) = w.2[i - w.1]? := by
  rw [replay_append]
  change some (replay (patch (replay m ws) w.1 w.2) ws' i) = w.2[i - w.1]?
  rw [replay_of_not_covers hlast, patch_of_covers hw]

end Writes

theorem getElem?_range {m : Nat → α} {off n i : Nat} (h : off ≤ i ∧ i < off + n) :
    (range m off n)[i - off]? = some (m i) := by
  rw [range, List.getElem?_map, List.getElem?_range (by omega), Option.map_some,
    Nat.add_sub_cancel' h.1]

section Lists

variable {z : α} {l : List α}

theorem ofList_of_le {i : Nat} (h : l.length ≤ i) : ofList z l i = z := by
  rw [ofList, List.getElem?_eq_none h, Option.getD_none]

theorem ofList_overwrite {bs : List α} {off : Nat} (h : off + bs.length ≤ l.length) :
    ofList z (overwrite l off bs) = patch (ofList z l) off bs := by
  funext i
  rw [ofList, patch, getElem?_overwrite h]
  by_cases hin : off ≤ i ∧ i < off + bs.length
  · rw [if_pos hin, if_pos hin.1, List.getElem?_eq_getElem (by omega), Option.getD_some,
      Option.getD_some]
  · rw [if_neg hin]
    split
    · have hout : bs.length ≤ i - off := by omega
      rw [List.getElem?_eq_none hout, Option.getD_none, ofList]
    · rfl

theorem ofList_resize {n : Nat} (h : l.length ≤ n) : ofList z (resize l n z) = ofList z l := by
  funext i
  by_cases hi : i < n
  · rw [ofList, getElem?_resize l z hi]
    split
    · rfl
    · rw [Option.getD_some, ofList_of_le (by omega)]
  · rw [ofList_of_le (by rw [length_resize]; omega), ofList_of_le (by omega)]

/-- Writing the default changes nothing where there is nothing else. -/
theorem patch_replicate {m : Nat → α} {off : Nat} (h : ∀ i, off ≤ i → m i = z) (n : Nat) :
    patch m off (List.replicate n z) = m := by
  funext i
  rw [patch]
  split
  · rename_i hle
    rw [List.getElem?_replicate]
    split
    · rw [Option.getD_some, h i hle]
    · rfl
  · rfl

theorem slice_eq_range (z : α) (l : List α) (off n : Nat) :
    slice l off n = range (ofList z l) off (slice l off n).length := by
  apply List.ext_getElem?
  intro j
  rw [range, List.getElem?_map]
  by_cases hj : j < (slice l off n).length
  · have hval : (slice l off n)[j]? = l[off + j]? := by
      rw [getElem?_slice, if_pos]
      rw [slice, List.length_take] at hj
      omega
    obtain ⟨a, ha⟩ : ∃ a, l[off + j]? = some a :=
      ⟨_, hval.symm.trans (List.getElem?_eq_getElem hj)⟩
    rw [List.getElem?_range hj, Option.map_some, ofList, hval, ha, Option.getD_some]
  · rw [List.getElem?_eq_none (by omega), List.getElem?_eq_none (by rw [List.length_range]; omega),
      Option.map_none]

end Lists

end Memory
