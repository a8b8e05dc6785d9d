import TacoDB.Utils.CaseInsensitive
import TacoDB.Utils.IntegerOperators

/-!
# The comparisons of the built-in types

The six comparison functions of the integer types, of `OID`, `BOOL`, `VARCHAR` and `CHAR`. The
strings are compared as `string_view`s are: by their bytes, and a string comes behind its
prefixes; of a `CHAR` the trailing spaces are left out.
-/

namespace Taco

open OrderByKey

/-- The sign of `memcmp` on the common length of two strings. -/
def memcmp : ByteString → ByteString → Int
  | x :: xs, y :: ys => if x = y then memcmp xs ys else (x.toNat : Int) - y.toNat
  | _, _ => 0

def stringViewCompare (s₁ s₂ : ByteString) : Int :=
  let res := memcmp s₁ s₂
  if res = 0 then
    if s₁.length < s₂.length then -1 else if s₁.length > s₂.length then 1 else 0
  else res

structure ComparisonFunctions where
  eq : FunctionInfo
  ne : FunctionInfo
  lt : FunctionInfo
  le : FunctionInfo
  gt : FunctionInfo
  ge : FunctionInfo

namespace ComparisonFunctions

def relations (c : ComparisonFunctions) : Comparisons NotNull where
  eq := IsTrue c.eq
  ne := IsTrue c.ne
  lt := IsTrue c.lt
  le := IsTrue c.le
  gt := IsTrue c.gt
  ge := IsTrue c.ge

def functions (c : ComparisonFunctions) : List FunctionInfo := [c.eq, c.ne, c.lt, c.le, c.gt, c.ge]

end ComparisonFunctions

def IntTypsupp.comparisons (f : IntTypsupp) : ComparisonFunctions where
  eq := f.eq
  ne := f.ne
  lt := f.lt
  le := f.le
  gt := f.gt
  ge := f.ge

def oidComparisons : ComparisonFunctions where
  eq := oidEq
  ne := strictBinary fun x y => x.getUInt 32 ≠ y.getUInt 32
  lt := strictBinary fun x y => x.getUInt 32 < y.getUInt 32
  le := strictBinary fun x y => x.getUInt 32 ≤ y.getUInt 32
  gt := strictBinary fun x y => x.getUInt 32 > y.getUInt 32
  ge := strictBinary fun x y => x.getUInt 32 ≥ y.getUInt 32

def boolComparisons : ComparisonFunctions where
  eq := strictBinary fun x y => x.getBool = y.getBool
  ne := strictBinary fun x y => x.getBool ≠ y.getBool
  lt := strictBinary fun x y => x.getBool.toNat < y.getBool.toNat
  le := strictBinary fun x y => x.getBool.toNat ≤ y.getBool.toNat
  gt := strictBinary fun x y => x.getBool.toNat > y.getBool.toNat
  ge := strictBinary fun x y => x.getBool.toNat ≥ y.getBool.toNat

def varcharComparisons : ComparisonFunctions where
  eq := varcharCompare fun str₀ str₁ => str₀ = str₁
  ne := varcharCompare fun str₀ str₁ => !decide (str₀ = str₁)
  lt := varcharCompare fun str₀ str₁ => stringViewCompare str₀ str₁ < 0
  le := varcharCompare fun str₀ str₁ => stringViewCompare str₀ str₁ ≤ 0
  gt := varcharCompare fun str₀ str₁ => stringViewCompare str₀ str₁ > 0
  ge := varcharCompare fun str₀ str₁ => stringViewCompare str₀ str₁ ≥ 0

def charComparisons : ComparisonFunctions where
  eq := charEq
  ne := charCompare fun str₀ str₁ => !decide (str₀ = str₁)
  lt := charCompare fun str₀ str₁ => stringViewCompare str₀ str₁ < 0
  le := charCompare fun str₀ str₁ => stringViewCompare str₀ str₁ ≤ 0
  gt := charCompare fun str₀ str₁ => stringViewCompare str₀ str₁ > 0
  ge := charCompare fun str₀ str₁ => stringViewCompare str₀ str₁ ≥ 0

def builtinComparisons : List ComparisonFunctions :=
  intTypsupps.map (fun p => p.2.comparisons) ++
    [oidComparisons, boolComparisons, varcharComparisons, charComparisons]

/-! ### Strings -/

/-- The bytes of a string, in whose order strings are compared. -/
def byteKey (s : ByteString) : List Nat := s.map BitVec.toNat

theorem byteKey_inj {s₁ s₂ : ByteString} : byteKey s₁ = byteKey s₂ ↔ s₁ = s₂ :=
  (List.map_injective_iff.mpr fun _ _ h => BitVec.toNat_inj.mp h).eq_iff

theorem stringViewCompare_cons (x y : Byte) (xs ys : ByteString) :
    stringViewCompare (x :: xs) (y :: ys) =
      if x = y then stringViewCompare xs ys else (x.toNat : Int) - y.toNat := by
  unfold stringViewCompare
  rw [memcmp]
  by_cases hxy : x = y
  · simp only [hxy, if_true, List.length_cons, Nat.add_lt_add_iff_right, gt_iff_lt]
  · have hne : (x.toNat : Int) - y.toNat ≠ 0 := by
      intro hzero
      exact hxy (BitVec.eq_of_toNat_eq (by omega))
    simp only [hxy, hne, if_false]

theorem stringViewCompare_sign (s₁ s₂ : ByteString) :
    (stringViewCompare s₁ s₂ < 0 ↔ byteKey s₁ < byteKey s₂) ∧
      (0 < stringViewCompare s₁ s₂ ↔ byteKey s₂ < byteKey s₁) := by
  induction s₁ generalizing s₂ with
  | nil =>
      cases s₂ with
      | nil => simp [stringViewCompare, memcmp, byteKey]
      | cons y ys => simp [stringViewCompare, memcmp, byteKey]
  | cons x xs ih =>
      cases s₂ with
      | nil => simp [stringViewCompare, memcmp, byteKey]
      | cons y ys =>
          rw [stringViewCompare_cons, byteKey, byteKey, List.map_cons, List.map_cons,
            List.cons_lt_cons_iff, List.cons_lt_cons_iff]
          by_cases hxy : x = y
          · rw [if_pos hxy, hxy]
            simp only [Nat.lt_irrefl, false_or, true_and]
            exact ih ys
          · have hne : x.toNat ≠ y.toNat := fun h => hxy (BitVec.eq_of_toNat_eq h)
            rw [if_neg hxy]
            simp only [hne, Ne.symm hne, false_and, or_false]
            omega

/-! ### The functions -/

theorem byKey_strictBinary {κ : Type} [LinearOrder κ] {c : ComparisonFunctions} (key : Datum → κ)
    {eq ne lt le gt ge : Datum → Datum → Bool}
    (hc : c = ⟨strictBinary eq, strictBinary ne, strictBinary lt, strictBinary le, strictBinary gt,
      strictBinary ge⟩)
    (heq : ∀ x y, eq x y = true ↔ key x = key y) (hne : ∀ x y, ne x y = true ↔ key x ≠ key y)
    (hlt : ∀ x y, lt x y = true ↔ key x < key y) (hle : ∀ x y, le x y = true ↔ key x ≤ key y)
    (hgt : ∀ x y, gt x y = true ↔ key y < key x) (hge : ∀ x y, ge x y = true ↔ key y ≤ key x) :
    c.relations.ByKey fun a => key a.1 := by
  subst hc
  exact
    { eq_iff := fun a b => isTrue_strictBinary.trans (heq a.1 b.1)
      ne_iff := fun a b => isTrue_strictBinary.trans (hne a.1 b.1)
      lt_iff := fun a b => isTrue_strictBinary.trans (hlt a.1 b.1)
      le_iff := fun a b => isTrue_strictBinary.trans (hle a.1 b.1)
      gt_iff := fun a b => isTrue_strictBinary.trans (hgt a.1 b.1)
      ge_iff := fun a b => isTrue_strictBinary.trans (hge a.1 b.1) }

theorem intTypsupp_byKey (t : IntType) :
    (intTypsupp t).comparisons.relations.ByKey fun a => t.get a.1 := by
  have heq : (intTypsupp t).eq = strictBinary fun x y => decide (t.get x = t.get y) := by
    change (if t.signed then intEq t.width else uintEq t.width) = _
    unfold intEq uintEq IntType.get
    cases t.signed with
    | true => rfl
    | false => simp only [Bool.false_eq_true, if_false, Int.natCast_inj]
  exact byKey_strictBinary t.get (by rw [IntTypsupp.comparisons, heq]; rfl)
    (fun _ _ => decide_eq_true_iff) (fun _ _ => decide_eq_true_iff) (fun _ _ => decide_eq_true_iff)
    (fun _ _ => decide_eq_true_iff) (fun _ _ => decide_eq_true_iff) fun _ _ => decide_eq_true_iff

theorem oid_byKey : oidComparisons.relations.ByKey fun a => a.1.getUInt 32 :=
  byKey_strictBinary (fun d => d.getUInt 32) rfl (fun _ _ => decide_eq_true_iff)
    (fun _ _ => decide_eq_true_iff) (fun _ _ => decide_eq_true_iff) (fun _ _ => decide_eq_true_iff)
    (fun _ _ => decide_eq_true_iff) fun _ _ => decide_eq_true_iff

theorem bool_byKey : boolComparisons.relations.ByKey fun a => a.1.getBool.toNat := by
  have hinj : ∀ b b' : Bool, b = b' ↔ b.toNat = b'.toNat := by decide
  exact byKey_strictBinary (fun d => d.getBool.toNat) rfl
    (fun _ _ => decide_eq_true_iff.trans (hinj _ _))
    (fun _ _ => decide_eq_true_iff.trans (not_congr (hinj _ _)))
    (fun _ _ => decide_eq_true_iff) (fun _ _ => decide_eq_true_iff)
    (fun _ _ => decide_eq_true_iff) fun _ _ => decide_eq_true_iff

theorem byKey_stringView {c : ComparisonFunctions} (str : Datum → ByteString)
    (hc : c = ⟨strictBinary fun x y => str x = str y,
      strictBinary fun x y => !decide (str x = str y),
      strictBinary fun x y => stringViewCompare (str x) (str y) < 0,
      strictBinary fun x y => stringViewCompare (str x) (str y) ≤ 0,
      strictBinary fun x y => stringViewCompare (str x) (str y) > 0,
      strictBinary fun x y => stringViewCompare (str x) (str y) ≥ 0⟩) :
    c.relations.ByKey fun a => byteKey (str a.1) := by
  have hsign := fun x y => stringViewCompare_sign (str x) (str y)
  refine byKey_strictBinary (fun d => byteKey (str d)) hc ?_ ?_ ?_ ?_ ?_ ?_
  · exact fun x y => decide_eq_true_iff.trans byteKey_inj.symm
  · intro x y
    rw [Bool.not_eq_true', decide_eq_false_iff_not, Ne, byteKey_inj]
  · exact fun x y => decide_eq_true_iff.trans (hsign x y).1
  · intro x y
    rw [decide_eq_true_iff, ← not_lt, (hsign x y).2, not_lt]
  · exact fun x y => decide_eq_true_iff.trans (hsign x y).2
  · intro x y
    rw [decide_eq_true_iff, ge_iff_le, ← not_lt, (hsign x y).1, not_lt]

theorem intTypsupp_eq (t : IntType) : ∃ p, (intTypsupp t).eq = strictBinary p := by
  change ∃ p, (if t.signed then intEq t.width else uintEq t.width) = strictBinary p
  split
  · exact ⟨_, rfl⟩
  · exact ⟨_, rfl⟩

theorem builtinComparisons_strict {c : ComparisonFunctions} (hc : c ∈ builtinComparisons)
    {g : FunctionInfo} (hg : g ∈ c.functions) : ∃ p, g = strictBinary p := by
  rw [builtinComparisons, List.mem_append, List.mem_map] at hc
  rcases hc with ⟨⟨t, f⟩, hf, rfl⟩ | hc
  · rw [(mem_intTypsupps hf).1] at hg
    simp only [ComparisonFunctions.functions, List.mem_cons, List.not_mem_nil, or_false] at hg
    rcases hg with rfl | rfl | rfl | rfl | rfl | rfl
    · exact intTypsupp_eq t
    all_goals exact ⟨_, rfl⟩
  · simp only [List.mem_cons, List.not_mem_nil, or_false] at hc
    simp only [ComparisonFunctions.functions, List.mem_cons, List.not_mem_nil, or_false] at hg
    rcases hc with rfl | rfl | rfl | rfl
    all_goals
      rcases hg with rfl | rfl | rfl | rfl | rfl | rfl
      all_goals exact ⟨_, rfl⟩

/-- On values that are not NULL a comparison function returns a truth value, and else NULL. -/
theorem builtinComparisons_returns {c : ComparisonFunctions} (hc : c ∈ builtinComparisons)
    {g : FunctionInfo} (hg : g ∈ c.functions) (d₀ d₁ : Datum) :
    if d₀.isnull || d₁.isnull then functionCall (some g) [d₀, d₁] = .ok .null
    else ∃ b, functionCall (some g) [d₀, d₁] = .ok (.ofBool b) := by
  obtain ⟨p, rfl⟩ := builtinComparisons_strict hc hg
  have hcall : functionCall (some (strictBinary p)) [d₀, d₁] =
      if d₀.isnull || d₁.isnull then .ok .null else .ok (.ofBool (p d₀ d₁)) := rfl
  split
  · rename_i hnull
    rw [hcall, if_pos hnull]
  · rename_i hnull
    exact ⟨p d₀ d₁, by rw [hcall, if_neg hnull]⟩

/-- The six comparison functions of each of the types compare its values in one order: the
integers as numbers, whatever is in the word of the datum behind the width of the type, `false`
before `true`, and strings by their bytes, those of a `CHAR` without the trailing spaces. NULL is
compared to nothing. -/
theorem builtinComparisons_byKey :
    (∀ t f, (t, f) ∈ intTypsupps → f.comparisons.relations.ByKey fun a => t.get a.1) ∧
      (oidComparisons.relations.ByKey fun a => a.1.getUInt 32) ∧
      (boolComparisons.relations.ByKey fun a => a.1.getBool.toNat) ∧
      (varcharComparisons.relations.ByKey fun a => byteKey a.1.getVarlenBytes) ∧
      (charComparisons.relations.ByKey fun a =>
        byteKey (Padding.trimmed 0x20 a.1.getVarlenBytes)) ∧
      (∀ c ∈ builtinComparisons, c.relations.Consistent ∧ ∀ g ∈ c.functions, ∀ d₀ d₁ : Datum,
        if d₀.isnull || d₁.isnull then functionCall (some g) [d₀, d₁] = .ok .null
        else ∃ b, functionCall (some g) [d₀, d₁] = .ok (.ofBool b)) := by
  have hint : ∀ t f, (t, f) ∈ intTypsupps → f.comparisons.relations.ByKey fun a => t.get a.1 := by
    intro t f hf
    rw [(mem_intTypsupps hf).1]
    exact intTypsupp_byKey t
  have hvarchar : varcharComparisons.relations.ByKey fun a => byteKey a.1.getVarlenBytes :=
    byKey_stringView Datum.getVarlenBytes rfl
  have hchar : charComparisons.relations.ByKey fun a =>
      byteKey (removeTrailingSpace a.1.getVarlenBytes) :=
    byKey_stringView (fun d => removeTrailingSpace d.getVarlenBytes) rfl
  have hchar' := hchar
  simp only [removeTrailingSpace_eq] at hchar'
  refine ⟨hint, oid_byKey, bool_byKey, hvarchar, hchar', fun c hc => ⟨?_, fun g hg d₀ d₁ =>
    builtinComparisons_returns hc hg d₀ d₁⟩⟩
  rw [builtinComparisons, List.mem_append, List.mem_map] at hc
  rcases hc with ⟨⟨t, f⟩, hf, rfl⟩ | hc
  · exact (hint t f hf).consistent
  · simp only [List.mem_cons, List.not_mem_nil, or_false] at hc
    rcases hc with rfl | rfl | rfl | rfl
    exacts [oid_byKey.consistent, bool_byKey.consistent, hvarchar.consistent, hchar.consistent]

end Taco
