import Mathlib.Data.List.Lex
import Mathlib.Data.Prod.Lex
import TacoDB.Data.OrderByKey
import TacoDB.Utils.CharTypes

/-!
# Case-insensitive comparisons

`string_compare_ci` and the comparison functions that call it or
`string_equal_ci`. Both pass counted strings to `strncasecmp`, which stops at a
NUL byte, so what they compare is the lower case of the bytes up to the first
NUL, and after that the size.
-/

namespace Taco

open OrderByKey Padding

/-- `strncasecmp` in the C locale, on the first `n` bytes. -/
def strncasecmp : ByteString → ByteString → Nat → Int
  | x :: xs, y :: ys, n + 1 =>
      let result : Int := (toLower x).toNat - (toLower y).toNat
      if result ≠ 0 ∨ x = 0 then result else strncasecmp xs ys n
  | _, _, _ => 0

def stringCompareCi (s₁ s₂ : ByteString) : Int :=
  let n := min s₁.length s₂.length
  let res := strncasecmp s₁ s₂ n
  if res = 0 then
    if s₁.length < s₂.length then -1 else if s₁.length > s₂.length then 1 else 0
  else res

def varcharCompare (f : ByteString → ByteString → Bool) : FunctionInfo :=
  strictBinary fun x y => f x.getVarlenBytes y.getVarlenBytes

def charCompare (f : ByteString → ByteString → Bool) : FunctionInfo :=
  strictBinary fun x y =>
    f (removeTrailingSpace x.getVarlenBytes) (removeTrailingSpace y.getVarlenBytes)

def varcharEqCi : FunctionInfo := varcharCompare stringEqualCi

def varcharNeCi : FunctionInfo := varcharCompare fun str₀ str₁ => !stringEqualCi str₀ str₁

def varcharLtCi : FunctionInfo := varcharCompare fun str₀ str₁ => stringCompareCi str₀ str₁ < 0

def varcharLeCi : FunctionInfo := varcharCompare fun str₀ str₁ => stringCompareCi str₀ str₁ ≤ 0

def varcharGtCi : FunctionInfo := varcharCompare fun str₀ str₁ => stringCompareCi str₀ str₁ > 0

def varcharGeCi : FunctionInfo := varcharCompare fun str₀ str₁ => stringCompareCi str₀ str₁ ≥ 0

def charEqCi : FunctionInfo := charCompare stringEqualCi

def charNeCi : FunctionInfo := charCompare fun str₀ str₁ => !stringEqualCi str₀ str₁

def charLtCi : FunctionInfo := charCompare fun str₀ str₁ => stringCompareCi str₀ str₁ < 0

def charLeCi : FunctionInfo := charCompare fun str₀ str₁ => stringCompareCi str₀ str₁ ≤ 0

def charGtCi : FunctionInfo := charCompare fun str₀ str₁ => stringCompareCi str₀ str₁ > 0

def charGeCi : FunctionInfo := charCompare fun str₀ str₁ => stringCompareCi str₀ str₁ ≥ 0

/-! ### The key -/

def cString : ByteString → List Nat
  | [] => []
  | x :: xs => (toLower x).toNat :: if x = 0 then [] else cString xs

/-- What the comparisons see of a string. -/
def ciKey (s : ByteString) : List Nat ×ₗ Nat := toLex (cString s, s.length)

theorem toLower_eq_zero {x : Byte} : (toLower x).toNat = 0 ↔ x = 0 := by
  revert x
  decide

theorem zero_iff_of_toLower_eq {x y : Byte} (h : (toLower x).toNat = (toLower y).toNat) :
    x = 0 ↔ y = 0 := by
  rw [← toLower_eq_zero, h, toLower_eq_zero]

theorem cString_cons_zero (xs : ByteString) : cString (0 :: xs) = [0] := rfl

theorem cString_cons_of_ne {x : Byte} (hx : x ≠ 0) (xs : ByteString) :
    cString (x :: xs) = (toLower x).toNat :: cString xs := by
  rw [cString, if_neg hx]

theorem ciKey_lt_iff {s₁ s₂ : ByteString} :
    ciKey s₁ < ciKey s₂ ↔ cString s₁ < cString s₂ ∨
      cString s₁ = cString s₂ ∧ s₁.length < s₂.length :=
  Prod.Lex.toLex_lt_toLex

theorem ciKey_cons_lt_iff {x y : Byte} {xs ys : ByteString} :
    ciKey (x :: xs) < ciKey (y :: ys) ↔ (toLower x).toNat < (toLower y).toNat ∨
      (toLower x).toNat = (toLower y).toNat ∧
        if x = 0 then xs.length < ys.length else ciKey xs < ciKey ys := by
  rw [ciKey_lt_iff, List.length_cons, List.length_cons, Nat.add_lt_add_iff_right]
  by_cases hxy : (toLower x).toNat = (toLower y).toNat
  · have hzero := zero_iff_of_toLower_eq hxy
    by_cases hx : x = 0
    · rw [if_pos hx, hx, hzero.mp hx, cString_cons_zero, cString_cons_zero]
      simp
    · rw [cString_cons_of_ne hx, cString_cons_of_ne (fun hy => hx (hzero.mpr hy)), hxy, if_neg hx,
        ciKey_lt_iff, List.cons_lt_cons_iff, List.cons.injEq]
      simp
  · unfold cString
    rw [List.cons_lt_cons_iff, List.cons.injEq]
    simp [hxy]

theorem ciKey_inj {s₁ s₂ : ByteString} :
    ciKey s₁ = ciKey s₂ ↔ cString s₁ = cString s₂ ∧ s₁.length = s₂.length := by
  rw [ciKey, ciKey, EmbeddingLike.apply_eq_iff_eq, Prod.mk.injEq]

/-! ### The two helpers -/

theorem strncasecmp_cons (x y : Byte) (xs ys : ByteString) (n : Nat) :
    strncasecmp (x :: xs) (y :: ys) (n + 1) =
      if (toLower x).toNat ≠ (toLower y).toNat then
        ((toLower x).toNat : Int) - (toLower y).toNat
      else if x = 0 then 0 else strncasecmp xs ys n := by
  rw [strncasecmp]
  by_cases hxy : (toLower x).toNat = (toLower y).toNat
  · simp only [hxy, Int.sub_self, ne_eq, not_true_eq_false, false_or, if_false]
  · have hne : ((toLower x).toNat : Int) - (toLower y).toNat ≠ 0 := by omega
    rw [if_pos (.inl hne), if_pos hxy]

theorem stringCompareCi_cons (x y : Byte) (xs ys : ByteString) :
    stringCompareCi (x :: xs) (y :: ys) =
      if (toLower x).toNat ≠ (toLower y).toNat then
        ((toLower x).toNat : Int) - (toLower y).toNat
      else if x = 0 then
        if xs.length < ys.length then -1 else if xs.length > ys.length then 1 else 0
      else stringCompareCi xs ys := by
  unfold stringCompareCi
  simp only [List.length_cons, Nat.succ_min_succ, strncasecmp_cons, Nat.add_lt_add_iff_right,
    gt_iff_lt]
  by_cases hxy : (toLower x).toNat = (toLower y).toNat
  · simp only [hxy, ne_eq, not_true_eq_false, if_false]
    by_cases hx : x = 0
    · simp only [hx, if_true]
    · simp only [hx, if_false]
  · have hne : ((toLower x).toNat : Int) - (toLower y).toNat ≠ 0 := by omega
    simp only [hxy, hne, ne_eq, not_false_eq_true, if_true, if_false]

theorem stringCompareCi_sign (s₁ s₂ : ByteString) :
    (stringCompareCi s₁ s₂ < 0 ↔ ciKey s₁ < ciKey s₂) ∧
      (0 < stringCompareCi s₁ s₂ ↔ ciKey s₂ < ciKey s₁) := by
  induction s₁ generalizing s₂ with
  | nil =>
      cases s₂ with
      | nil => simp [stringCompareCi, strncasecmp]
      | cons y ys => simp [stringCompareCi, strncasecmp, ciKey_lt_iff, cString]
  | cons x xs ih =>
      cases s₂ with
      | nil => simp [stringCompareCi, strncasecmp, ciKey_lt_iff, cString]
      | cons y ys =>
          rw [stringCompareCi_cons, ciKey_cons_lt_iff, ciKey_cons_lt_iff]
          by_cases hxy : (toLower x).toNat = (toLower y).toNat
          · have hzero := zero_iff_of_toLower_eq hxy
            rw [if_neg (not_not.mpr hxy)]
            by_cases hx : x = 0
            · rw [if_pos hx, if_pos hx, if_pos (hzero.mp hx)]
              split_ifs <;> omega
            · rw [if_neg hx, if_neg hx, if_neg fun hy => hx (hzero.mpr hy), (ih ys).1, (ih ys).2]
              simp [hxy]
          · rw [if_pos hxy]
            have hyx : (toLower y).toNat ≠ (toLower x).toNat := Ne.symm hxy
            simp only [hxy, hyx, false_and, or_false]
            omega

theorem strncasecmpEq_iff {s₁ s₂ : ByteString} (h : s₁.length = s₂.length) :
    strncasecmpEq s₁ s₂ = true ↔ cString s₁ = cString s₂ := by
  induction s₁ generalizing s₂ with
  | nil =>
      rw [List.eq_nil_of_length_eq_zero h.symm]
      simp [strncasecmpEq]
  | cons x xs ih =>
      cases s₂ with
      | nil => cases h
      | cons y ys =>
          rw [strncasecmpEq, cString, cString, List.cons.injEq, Bool.and_eq_true,
            decide_eq_true_iff, ← BitVec.toNat_inj]
          refine and_congr_right fun hxy => ?_
          rw [if_congr (zero_iff_of_toLower_eq hxy) rfl rfl, Bool.or_eq_true, decide_eq_true_iff,
            ih (Nat.succ.inj h), zero_iff_of_toLower_eq hxy]
          by_cases hy : y = 0
          · simp only [hy, if_true, true_or]
          · simp only [hy, if_false, false_or]

theorem stringEqualCi_iff {s₁ s₂ : ByteString} :
    stringEqualCi s₁ s₂ = true ↔ ciKey s₁ = ciKey s₂ := by
  rw [stringEqualCi, ciKey_inj, Bool.and_eq_true, decide_eq_true_iff, and_comm]
  exact and_congr_left strncasecmpEq_iff

/-! ### The comparison functions -/

abbrev NotNull : Type := { d : Datum // d.isnull = false }

def IsTrue (f : FunctionInfo) (a b : NotNull) : Prop :=
  functionCall (some f) [a.1, b.1] = .ok (.ofBool true)

theorem ofBool_inj {b b' : Bool} : Datum.ofBool b = Datum.ofBool b' ↔ b = b' := by
  revert b b'
  decide

theorem isTrue_strictBinary {f : Datum → Datum → Bool} {a b : NotNull} :
    IsTrue (strictBinary f) a b ↔ f a.1 b.1 = true := by
  unfold IsTrue functionCall
  dsimp only
  rw [strictBinary_of_notNull a.2 b.2, Except.ok.injEq, ofBool_inj]

def varcharCi : Comparisons NotNull where
  eq := IsTrue varcharEqCi
  ne := IsTrue varcharNeCi
  lt := IsTrue varcharLtCi
  le := IsTrue varcharLeCi
  gt := IsTrue varcharGtCi
  ge := IsTrue varcharGeCi

def charCi : Comparisons NotNull where
  eq := IsTrue charEqCi
  ne := IsTrue charNeCi
  lt := IsTrue charLtCi
  le := IsTrue charLeCi
  gt := IsTrue charGtCi
  ge := IsTrue charGeCi

theorem byKey_of_helpers {r : Comparisons NotNull} (str : NotNull → ByteString)
    (heq : ∀ a b, r.eq a b ↔ stringEqualCi (str a) (str b) = true)
    (hne : ∀ a b, r.ne a b ↔ (!stringEqualCi (str a) (str b)) = true)
    (hlt : ∀ a b, r.lt a b ↔ stringCompareCi (str a) (str b) < 0)
    (hle : ∀ a b, r.le a b ↔ stringCompareCi (str a) (str b) ≤ 0)
    (hgt : ∀ a b, r.gt a b ↔ stringCompareCi (str a) (str b) > 0)
    (hge : ∀ a b, r.ge a b ↔ stringCompareCi (str a) (str b) ≥ 0) :
    r.ByKey fun a => ciKey (str a) where
  eq_iff a b := by rw [heq, stringEqualCi_iff]
  ne_iff a b := by rw [hne, Bool.not_eq_true', Bool.eq_false_iff, Ne, stringEqualCi_iff]
  lt_iff a b := by rw [hlt, (stringCompareCi_sign _ _).1]
  le_iff a b := by rw [hle, ← not_lt, (stringCompareCi_sign _ _).2, not_lt]
  gt_iff a b := by rw [hgt, gt_iff_lt, (stringCompareCi_sign _ _).2]
  ge_iff a b := by rw [hge, ge_iff_le, ← not_lt, (stringCompareCi_sign _ _).1, not_lt]

theorem varcharCi_byKey : varcharCi.ByKey fun a => ciKey a.1.getVarlenBytes :=
  byKey_of_helpers _ (fun _ _ => isTrue_strictBinary) (fun _ _ => isTrue_strictBinary)
    (fun _ _ => isTrue_strictBinary.trans decide_eq_true_iff)
    (fun _ _ => isTrue_strictBinary.trans decide_eq_true_iff)
    (fun _ _ => isTrue_strictBinary.trans decide_eq_true_iff)
    (fun _ _ => isTrue_strictBinary.trans decide_eq_true_iff)

theorem charCi_byKey : charCi.ByKey fun a => ciKey (removeTrailingSpace a.1.getVarlenBytes) :=
  byKey_of_helpers _ (fun _ _ => isTrue_strictBinary) (fun _ _ => isTrue_strictBinary)
    (fun _ _ => isTrue_strictBinary.trans decide_eq_true_iff)
    (fun _ _ => isTrue_strictBinary.trans decide_eq_true_iff)
    (fun _ _ => isTrue_strictBinary.trans decide_eq_true_iff)
    (fun _ _ => isTrue_strictBinary.trans decide_eq_true_iff)

/-- The case-insensitive comparisons of both types are those of a linear order
up to their equality, which is the order of the keys of their strings, and every
one of them returns a truth value. -/
theorem ci_consistent :
    varcharCi.Consistent ∧ charCi.Consistent ∧
      varcharCi.ByKey (fun a => ciKey a.1.getVarlenBytes) ∧
      charCi.ByKey (fun a => ciKey (removeTrailingSpace a.1.getVarlenBytes)) ∧
      (∃ a b, varcharCi.lt a b ∧ charCi.lt a b) ∧
      ∀ f ∈ [varcharEqCi, varcharNeCi, varcharLtCi, varcharLeCi, varcharGtCi, varcharGeCi,
          charEqCi, charNeCi, charLtCi, charLeCi, charGtCi, charGeCi],
        ∀ a b : NotNull, ∃ res, functionCall (some f) [a.1, b.1] = .ok (.ofBool res) := by
  have hlt : ∀ g : FunctionInfo, g ∈ [varcharLtCi, charLtCi] →
      IsTrue g ⟨.fromVarlenBytes [97], rfl⟩ ⟨.fromVarlenBytes [66, 32], rfl⟩ := by
    intro g hg
    rcases List.mem_pair.mp hg with rfl | rfl
    · exact isTrue_strictBinary.mpr (by decide +kernel)
    · exact isTrue_strictBinary.mpr (by decide +kernel)
  refine ⟨varcharCi_byKey.consistent, charCi_byKey.consistent, varcharCi_byKey, charCi_byKey,
    ⟨_, _, hlt _ List.mem_cons_self, hlt _ (List.mem_cons_of_mem _ List.mem_cons_self)⟩,
    fun f hf a b => ?_⟩
  have hvarchar : ∀ g, ∃ res, functionCall (some (varcharCompare g)) [a.1, b.1] =
      .ok (.ofBool res) := fun g => ⟨_, strictBinary_of_notNull a.2 b.2 0⟩
  have hchar : ∀ g, ∃ res, functionCall (some (charCompare g)) [a.1, b.1] =
      .ok (.ofBool res) := fun g => ⟨_, strictBinary_of_notNull a.2 b.2 0⟩
  simp only [List.mem_cons, List.not_mem_nil, or_false] at hf
  rcases hf with rfl | rfl | rfl | rfl | rfl | rfl | rfl | rfl | rfl | rfl | rfl | rfl
  exacts [hvarchar _, hvarchar _, hvarchar _, hvarchar _, hvarchar _, hvarchar _, hchar _, hchar _,
    hchar _, hchar _, hchar _, hchar _]

/-! ### Equality up to case -/

/-- The strings have the same length and are equal byte by byte in lower case. -/
def EqualUpToCase (s₁ s₂ : ByteString) : Prop :=
  s₁.length = s₂.length ∧ s₁.map toLower = s₂.map toLower

/-- The strings have the same length, are equal up to case as far as a NUL byte,
and not behind it. -/
def DifferBehindNul (s₁ s₂ : ByteString) : Prop :=
  s₁.length = s₂.length ∧ ∃ i : Nat, s₁[i]? = some 0 ∧
    (s₁.take (i + 1)).map toLower = (s₂.take (i + 1)).map toLower ∧
    (s₁.drop (i + 1)).map toLower ≠ (s₂.drop (i + 1)).map toLower

/-- The C strings of two strings of one length are equal when these agree up to
case, to their end or to a NUL byte. -/
theorem cString_eq_iff {s₁ s₂ : ByteString} (h : s₁.length = s₂.length) :
    cString s₁ = cString s₂ ↔ s₁.map toLower = s₂.map toLower ∨
      ∃ i : Nat, s₁[i]? = some 0 ∧
        (s₁.take (i + 1)).map toLower = (s₂.take (i + 1)).map toLower := by
  induction s₁ generalizing s₂ with
  | nil =>
      rw [List.eq_nil_of_length_eq_zero h.symm]
      simp
  | cons x xs ih =>
      cases s₂ with
      | nil => cases h
      | cons y ys =>
          rw [cString, cString, List.map_cons, List.map_cons, List.cons.injEq, List.cons.injEq,
            BitVec.toNat_inj]
          constructor
          · rintro ⟨hxy, htail⟩
            have hzero := zero_iff_of_toLower_eq (congrArg BitVec.toNat hxy)
            by_cases hx : x = 0
            · exact .inr ⟨0, congrArg some hx, congrArg (fun b => [b]) hxy⟩
            · rw [if_neg hx, if_neg fun hy => hx (hzero.mpr hy), ih (Nat.succ.inj h)] at htail
              rcases htail with heq | ⟨i, hi, heq⟩
              · exact .inl ⟨hxy, heq⟩
              · exact .inr ⟨i + 1, hi, congrArg₂ List.cons hxy heq⟩
          · intro hagree
            have hxy : toLower x = toLower y := by
              rcases hagree with ⟨hxy, -⟩ | ⟨i, -, heq⟩
              · exact hxy
              · exact (List.cons.inj heq).1
            have hzero := zero_iff_of_toLower_eq (congrArg BitVec.toNat hxy)
            refine ⟨hxy, ?_⟩
            by_cases hx : x = 0
            · rw [if_pos hx, if_pos (hzero.mp hx)]
            · rw [if_neg hx, if_neg fun hy => hx (hzero.mpr hy), ih (Nat.succ.inj h)]
              rcases hagree with ⟨-, heq⟩ | ⟨i, hi, heq⟩
              · exact .inl heq
              · cases i with
                | zero => exact absurd (Option.some.inj hi) hx
                | succ i => exact .inr ⟨i, hi, (List.cons.inj heq).2⟩

theorem stringEqualCi_iff_agree {s₁ s₂ : ByteString} :
    stringEqualCi s₁ s₂ = true ↔ EqualUpToCase s₁ s₂ ∨ DifferBehindNul s₁ s₂ := by
  rw [stringEqualCi_iff, ciKey_inj, and_comm]
  unfold EqualUpToCase DifferBehindNul
  rw [← and_or_left]
  refine and_congr_right fun hlen => ?_
  rw [cString_eq_iff hlen]
  constructor
  · rintro (heq | ⟨i, hi, heq⟩)
    · exact .inl heq
    · by_cases hdrop : (s₁.drop (i + 1)).map toLower = (s₂.drop (i + 1)).map toLower
      · left
        rw [← List.take_append_drop (i + 1) s₁, ← List.take_append_drop (i + 1) s₂,
          List.map_append, List.map_append, heq, hdrop]
      · exact .inr ⟨i, hi, heq, hdrop⟩
  · rintro (heq | ⟨i, hi, heq, -⟩)
    · exact .inl heq
    · exact .inr ⟨i, hi, heq⟩

theorem DifferBehindNul.not_equal {s₁ s₂ : ByteString} (h : DifferBehindNul s₁ s₂) :
    ¬EqualUpToCase s₁ s₂ := by
  obtain ⟨-, i, -, -, hdrop⟩ := h
  rintro ⟨-, heq⟩
  apply hdrop
  rw [List.map_drop, List.map_drop, heq]

/-- `string_equal_ci`, and the functions that call it on a `VARCHAR`, decide
equality up to case on the strings that do not differ behind a NUL byte only. -/
theorem equal_ci_iff_equalUpToCase (a b : NotNull) :
    ((stringEqualCi a.1.getVarlenBytes b.1.getVarlenBytes = true ↔
          EqualUpToCase a.1.getVarlenBytes b.1.getVarlenBytes) ∧
        (IsTrue varcharEqCi a b ↔ EqualUpToCase a.1.getVarlenBytes b.1.getVarlenBytes) ∧
        (IsTrue varcharStringEqCi a b ↔
          EqualUpToCase a.1.getVarlenBytes b.1.getVarlenBytes)) ↔
      ¬DifferBehindNul a.1.getVarlenBytes b.1.getVarlenBytes := by
  have hvarchar : IsTrue varcharEqCi a b ↔ _ := isTrue_strictBinary
  have hstring : IsTrue varcharStringEqCi a b ↔ _ := isTrue_strictBinary
  rw [hvarchar, hstring, and_self, and_self, stringEqualCi_iff_agree]
  constructor
  · intro h hdiff
    exact hdiff.not_equal (h.mp (.inr hdiff))
  · intro hdiff
    rw [or_iff_left hdiff]

theorem equal_ci_behind_nul :
    let a : NotNull := ⟨.varlen true [0, 0x61] (by decide), rfl⟩
    let b : NotNull := ⟨.varlen true [0, 0x62] (by decide), rfl⟩
    varcharIn ⟨[.fromVarlenBytes [0, 0x61]], 2⟩ = .ok a.1 ∧
      varcharIn ⟨[.fromVarlenBytes [0, 0x62]], 2⟩ = .ok b.1 ∧
      stringEqualCi a.1.getVarlenBytes b.1.getVarlenBytes = true ∧
      IsTrue varcharEqCi a b ∧ IsTrue varcharStringEqCi a b ∧
      ¬EqualUpToCase a.1.getVarlenBytes b.1.getVarlenBytes :=
  ⟨rfl, rfl, by decide, isTrue_strictBinary.mpr (by decide), isTrue_strictBinary.mpr (by decide),
    fun h => absurd h.2 (by decide)⟩

end Taco
