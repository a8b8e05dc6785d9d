import Mathlib.Data.List.Basic
import Mathlib.Tactic.SplitIfs

/-!
# Quoted strings

A quoted string ends at the first quote that is not escaped, and a quote or an escape
character in it is preceded by an escape character. `escape` writes a string so,
`readQuoted` reads one and returns what follows the closing quote; `readOpen` reads one that
has no closing quote. Reading inverts escaping; a string that is put between quotes as it is comes back only when neither of the
two characters occurs in it.
-/

namespace Quoting

variable {α : Type*} [DecidableEq α] (q b : α)

def Special (c : α) : Prop := c = q ∨ c = b

instance (c : α) : Decidable (Special q b c) := inferInstanceAs (Decidable (c = q ∨ c = b))

/-- The string with an escape character in front of every special character. -/
def escape (w : List α) : List α := w.flatMap fun c => if Special q b c then [b, c] else [c]

def readQuoted : List α → Option (List α × List α)
  | [] => none
  | [c] => if c = q then some ([], []) else none
  | c :: d :: rest =>
      if c = q then some ([], d :: rest)
      else if c = b then
        if Special q b d then (readQuoted rest).map fun r => (d :: r.1, r.2) else none
      else (readQuoted (d :: rest)).map fun r => (c :: r.1, r.2)

/-- The string behind an opening quote that is never closed: neither a quote nor a wrong
escape follows. -/
def readOpen : List α → Option (List α)
  | [] => some []
  | [c] => if Special q b c then none else some [c]
  | c :: d :: rest =>
      if c = q then none
      else if c = b then
        if Special q b d then (readOpen rest).map (d :: ·) else none
      else (readOpen (d :: rest)).map (c :: ·)

variable {q b}

theorem readQuoted_quote (rest : List α) : readQuoted q b (q :: rest) = some ([], rest) := by
  cases rest with
  | nil => rw [readQuoted, if_pos rfl]
  | cons d rest => rw [readQuoted, if_pos rfl]

theorem readQuoted_plain {c : α} (hc : ¬ Special q b c) (rest : List α) :
    readQuoted q b (c :: rest) = (readQuoted q b rest).map fun r => (c :: r.1, r.2) := by
  have hq : c ≠ q := fun h => hc (Or.inl h)
  have hb : c ≠ b := fun h => hc (Or.inr h)
  cases rest with
  | nil =>
      rw [readQuoted.eq_1, Option.map_none, readQuoted.eq_2, if_neg hq]
  | cons d rest => rw [readQuoted, if_neg hq, if_neg hb]

theorem readQuoted_escaped (hqb : b ≠ q) {d : α} (hd : Special q b d) (rest : List α) :
    readQuoted q b (b :: d :: rest) = (readQuoted q b rest).map fun r => (d :: r.1, r.2) := by
  rw [readQuoted, if_neg hqb, if_pos rfl, if_pos hd]

theorem readQuoted_bad (hqb : b ≠ q) {d : α} (hd : ¬ Special q b d) (rest : List α) :
    readQuoted q b (b :: d :: rest) = none := by
  rw [readQuoted, if_neg hqb, if_pos rfl, if_neg hd]

theorem length_of_readQuoted {w : List α} {r : List α × List α} (h : readQuoted q b w = some r) :
    r.2.length < w.length := by
  induction w using readQuoted.induct q b generalizing r with
  | case1 => cases h
  | case2 =>
      rw [readQuoted_quote] at h
      cases h
      exact Nat.lt_succ_self _
  | case3 c hq =>
      rw [readQuoted, if_neg hq] at h
      cases h
  | case4 d rest =>
      rw [readQuoted_quote] at h
      cases h
      exact Nat.lt_succ_self _
  | case5 d rest hd hq ih =>
      rw [readQuoted_escaped hq hd] at h
      obtain ⟨r', hr', rfl⟩ := Option.map_eq_some_iff.mp h
      have := ih hr'
      simp only [List.length_cons]
      omega
  | case6 d rest hd hq =>
      rw [readQuoted_bad hq hd] at h
      cases h
  | case7 c d rest hq hb ih =>
      rw [readQuoted_plain (fun hc => hc.elim hq hb)] at h
      obtain ⟨r', hr', rfl⟩ := Option.map_eq_some_iff.mp h
      have := ih hr'
      simp only [List.length_cons] at this ⊢
      omega

theorem readOpen_plain {c : α} (hc : ¬ Special q b c) (rest : List α) :
    readOpen q b (c :: rest) = (readOpen q b rest).map (c :: ·) := by
  have hq : c ≠ q := fun h => hc (Or.inl h)
  have hb : c ≠ b := fun h => hc (Or.inr h)
  cases rest with
  | nil => rw [readOpen.eq_1, Option.map_some, readOpen.eq_2, if_neg hc]
  | cons d rest => rw [readOpen, if_neg hq, if_neg hb]

theorem readOpen_escaped (hqb : b ≠ q) {d : α} (hd : Special q b d) (rest : List α) :
    readOpen q b (b :: d :: rest) = (readOpen q b rest).map (d :: ·) := by
  rw [readOpen, if_neg hqb, if_pos rfl, if_pos hd]

theorem escape_cons (c : α) (w : List α) :
    escape q b (c :: w) = (if Special q b c then [b, c] else [c]) ++ escape q b w :=
  List.flatMap_cons

/-- Nothing is escaped in a string without special characters. -/
theorem escape_eq_self {w : List α} (hw : ∀ c ∈ w, ¬ Special q b c) : escape q b w = w := by
  induction w with
  | nil => rfl
  | cons c w ih =>
      rw [escape_cons, if_neg (hw c List.mem_cons_self),
        ih fun d hd => hw d (List.mem_cons_of_mem _ hd)]
      rfl

theorem readQuoted_escape (hqb : b ≠ q) (w rest : List α) :
    readQuoted q b (escape q b w ++ q :: rest) = some (w, rest) := by
  induction w with
  | nil => exact readQuoted_quote rest
  | cons c w ih =>
      rw [escape_cons, List.append_assoc]
      by_cases hc : Special q b c
      · rw [if_pos hc]
        change readQuoted q b (b :: c :: (escape q b w ++ q :: rest)) = _
        rw [readQuoted_escaped hqb hc, ih]
        rfl
      · rw [if_neg hc]
        change readQuoted q b (c :: (escape q b w ++ q :: rest)) = _
        rw [readQuoted_plain hc, ih]
        rfl

/-- An escape character that is read as the first character was followed by another one. -/
theorem readQuoted_backslash (hqb : b ≠ q) {x y rest : List α} {r : List α × List α}
    (hr : readQuoted q b (b :: (x ++ q :: rest)) = some r) (hy : r.1 = b :: y) :
    ∃ x', x = b :: x' ∧ readQuoted q b (x' ++ q :: rest) = some (y, r.2) := by
  cases x with
  | nil =>
      rw [List.nil_append, readQuoted_escaped hqb (Or.inl rfl)] at hr
      obtain ⟨r', -, rfl⟩ := Option.map_eq_some_iff.mp hr
      exact absurd (List.cons.inj hy).1.symm hqb
  | cons d x =>
      rw [List.cons_append] at hr
      by_cases hd : Special q b d
      · rw [readQuoted_escaped hqb hd] at hr
        obtain ⟨r', hr', rfl⟩ := Option.map_eq_some_iff.mp hr
        obtain ⟨rfl, rfl⟩ := List.cons.inj hy
        exact ⟨x, rfl, hr'⟩
      · rw [readQuoted_bad hqb hd] at hr
        cases hr

/-- The first character that is read is the first one of the string, unless that is
special. -/
theorem readQuoted_head {c : α} {x y : List α} {r : List α × List α}
    (hr : readQuoted q b (c :: x) = some r) (hy : r.1 = b :: y) : c = b := by
  by_contra hcb
  by_cases hcq : c = q
  · rw [hcq, readQuoted_quote] at hr
    cases hr
    cases hy
  · have hc : ¬ Special q b c := by
      rintro (h | h)
      · exact hcq h
      · exact hcb h
    rw [readQuoted_plain hc] at hr
    obtain ⟨r', -, rfl⟩ := Option.map_eq_some_iff.mp hr
    exact hcb (List.cons.inj hy).1

/-- A string in front of a quote is not read with more escape characters in front of it. -/
theorem readQuoted_ne_replicate_append (hqb : b ≠ q) (rest : List α) :
    ∀ (n : Nat) (x : List α) (k : Nat) (r : List α × List α), x.length ≤ n →
      readQuoted q b (x ++ q :: rest) = some r → r.1 ≠ List.replicate (k + 1) b ++ x := by
  -- induction on a bound of the length: two characters are read at an escape character
  intro n
  induction n with
  | zero =>
      intro x k r hn hr
      rw [List.length_eq_zero_iff.mp (Nat.le_zero.mp hn), List.nil_append, readQuoted_quote] at hr
      cases hr
      rw [List.replicate_succ]
      exact nofun
  | succ n ih =>
      intro x k r hn hr heq
      rw [List.replicate_succ, List.cons_append] at heq
      cases x with
      | nil =>
          rw [List.nil_append, readQuoted_quote] at hr
          cases hr
          cases heq
      | cons c x =>
          rw [List.cons_append] at hr
          have hcb := readQuoted_head hr heq
          subst hcb
          obtain ⟨x', rfl, hr'⟩ := readQuoted_backslash hqb hr heq
          refine ih x' (k + 1) _ (by simp only [List.length_cons] at hn; omega) hr' ?_
          rw [List.replicate_succ', List.append_assoc, List.replicate_succ', List.append_assoc]
          rfl

/-- A string that is put in front of a quote as it is, is read back only when it has no
special character. -/
theorem readQuoted_raw_ne (hqb : b ≠ q) {w : List α} (hw : ∃ c ∈ w, Special q b c)
    (rest : List α) : ∀ r, readQuoted q b (w ++ q :: rest) = some r → r.1 ≠ w := by
  induction w with
  | nil =>
      obtain ⟨c, hc, -⟩ := hw
      cases hc
  | cons c w ih =>
      intro r hr heq
      rw [List.cons_append] at hr
      by_cases hcq : c = q
      · rw [hcq, readQuoted_quote] at hr
        cases hr
        cases heq
      by_cases hcb : c = b
      · subst hcb
        obtain ⟨w', rfl, hr'⟩ := readQuoted_backslash hqb hr heq
        exact readQuoted_ne_replicate_append hqb rest _ w' 0 _ (Nat.le_refl _) hr' rfl
      · have hc : ¬ Special q b c := by
          rintro (h | h)
          · exact hcq h
          · exact hcb h
        rw [readQuoted_plain hc] at hr
        obtain ⟨r', hr', rfl⟩ := Option.map_eq_some_iff.mp hr
        obtain ⟨d, hd, hspecial⟩ := hw
        rcases List.mem_cons.mp hd with rfl | hd
        · exact hc hspecial
        · exact ih ⟨d, hd, hspecial⟩ r' hr' (List.cons.inj heq).2

end Quoting
