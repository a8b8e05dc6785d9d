import Mathlib.Tactic.Linarith
import TacoDB.Utils.IntegerDivision

/-!
# The operators of the integer types

The other functions of `primitive_inttype_template`, which is filled in for eight integer types.
C++ carries an operation out in the promoted type: for the short types in `int`, whose results
are then cut to the width of the type, and for the others in the type itself. So a short type
wraps around where a long signed one is undefined, with one exception: the product of two
`uint16_t` is a product of two `int`, and can be too large for it.

A shift is carried out in the promoted type of its left operand. `<<` and `>>` follow C++11,
where a shift to the left of a negative number or out of the range is undefined; a shift of a
negative number to the right keeps its sign.
-/

namespace Taco

open TwosComplement

namespace IntType

/-- The result `r` of an operation on promoted operands, converted to the type. -/
def machineResult (t : IntType) (r : Int) : Except Failure Int :=
  if t.promoted.signed = true ∧ ¬t.promoted.Contains r then .error overflow
  else .ok (t.convert (t.promoted.convert r))

def toBits (t : IntType) (x : Int) : BitVec t.width := BitVec.ofInt t.width x

def ofBits (t : IntType) (v : BitVec t.width) : Int := if t.signed then v.toInt else v.toNat

def machineBits (t : IntType) (v : BitVec t.promoted.width) : Except Failure Int :=
  .ok (t.convert (t.promoted.ofBits v))

/-- The failure of a shift by a negative number, or by the width of the operand or more. -/
def shiftCount : Failure := .undefined "shift count"

def machineShl (t : IntType) (arg0 arg1 : Int) : Except Failure Int :=
  if arg1 < 0 ∨ t.promoted.width ≤ arg1 then .error shiftCount
  else if t.promoted.signed = true ∧ arg0 < 0 then .error overflow
  else t.machineResult (arg0 * 2 ^ arg1.toNat)

def machineShr (t : IntType) (arg0 arg1 : Int) : Except Failure Int :=
  if arg1 < 0 ∨ t.promoted.width ≤ arg1 then .error shiftCount
  else .ok (t.convert (arg0 / 2 ^ arg1.toNat))

end IntType

def intUnary (t : IntType) (op : Int → Except Failure Int) : FunctionInfo := fun info => do
  let d ← info.arg 0
  if d.isnull then return .null
  else
    let res ← op (t.get d)
    return .ofInt res

/-- A function of two integers, the second one read by `get₁`. -/
def intBinary (t : IntType) (get₁ : Datum → Int) (op : Int → Int → Except Failure Int) :
    FunctionInfo := fun info => do
  let d₀ ← info.arg 0
  let d₁ ← info.arg 1
  if d₀.isnull || d₁.isnull then return .null
  else
    let res ← op (t.get d₀) (get₁ d₁)
    return .ofInt res

def intCompare (t : IntType) (p : Int → Int → Bool) : FunctionInfo :=
  strictBinary fun d₀ d₁ => p (t.get d₀) (t.get d₁)

/-- The functions `X_add` to `X_rsh` of an integer type `X`. -/
structure IntTypsupp where
  add : FunctionInfo
  sub : FunctionInfo
  mul : FunctionInfo
  neg : FunctionInfo
  eq : FunctionInfo
  ne : FunctionInfo
  lt : FunctionInfo
  le : FunctionInfo
  gt : FunctionInfo
  ge : FunctionInfo
  not : FunctionInfo
  and : FunctionInfo
  or : FunctionInfo
  xor : FunctionInfo
  lsh : FunctionInfo
  rsh : FunctionInfo

def intTypsupp (t : IntType) : IntTypsupp where
  add := intBinary t t.get fun arg0 arg1 => t.machineResult (arg0 + arg1)
  sub := intBinary t t.get fun arg0 arg1 => t.machineResult (arg0 - arg1)
  mul := intBinary t t.get fun arg0 arg1 => t.machineResult (arg0 * arg1)
  neg := intUnary t fun arg0 => t.machineResult (-arg0)
  eq := if t.signed then intEq t.width else uintEq t.width
  ne := intCompare t fun arg0 arg1 => arg0 ≠ arg1
  lt := intCompare t fun arg0 arg1 => arg0 < arg1
  le := intCompare t fun arg0 arg1 => arg0 ≤ arg1
  gt := intCompare t fun arg0 arg1 => arg0 > arg1
  ge := intCompare t fun arg0 arg1 => arg0 ≥ arg1
  not := intUnary t fun arg0 => t.machineBits (~~~t.promoted.toBits arg0)
  and := intBinary t t.get fun arg0 arg1 =>
    t.machineBits (t.promoted.toBits arg0 &&& t.promoted.toBits arg1)
  or := intBinary t t.get fun arg0 arg1 =>
    t.machineBits (t.promoted.toBits arg0 ||| t.promoted.toBits arg1)
  xor := intBinary t t.get fun arg0 arg1 =>
    t.machineBits (t.promoted.toBits arg0 ^^^ t.promoted.toBits arg1)
  -- the number of bits is a `UINT1`, but only `X_rsh` reads it as one
  lsh := intBinary t t.get t.machineShl
  rsh := intBinary t (fun d => t.convert (d.getUInt 8)) t.machineShr

def int1 : IntTypsupp := intTypsupp ⟨true, 8⟩

def int2 : IntTypsupp := intTypsupp ⟨true, 16⟩

def int4 : IntTypsupp := intTypsupp ⟨true, 32⟩

def int8 : IntTypsupp := intTypsupp ⟨true, 64⟩

def uint1 : IntTypsupp := intTypsupp ⟨false, 8⟩

def uint2 : IntTypsupp := intTypsupp ⟨false, 16⟩

def uint4 : IntTypsupp := intTypsupp ⟨false, 32⟩

def uint8 : IntTypsupp := intTypsupp ⟨false, 64⟩

def intTypsupps : List (IntType × IntTypsupp) :=
  [(⟨true, 8⟩, int1), (⟨true, 16⟩, int2), (⟨true, 32⟩, int4), (⟨true, 64⟩, int8),
    (⟨false, 8⟩, uint1), (⟨false, 16⟩, uint2), (⟨false, 32⟩, uint4), (⟨false, 64⟩, uint8)]

structure IntType.IsMachine (t : IntType) : Prop where
  width : t.width = 8 ∨ t.width = 16 ∨ t.width = 32 ∨ t.width = 64

theorem mem_intTypsupps {t : IntType} {f : IntTypsupp} (h : (t, f) ∈ intTypsupps) :
    f = intTypsupp t ∧ t.IsMachine := by
  simp only [intTypsupps, List.mem_cons, List.not_mem_nil, or_false, Prod.mk.injEq] at h
  rcases h with ⟨rfl, rfl⟩ | ⟨rfl, rfl⟩ | ⟨rfl, rfl⟩ | ⟨rfl, rfl⟩ | ⟨rfl, rfl⟩ | ⟨rfl, rfl⟩ |
    ⟨rfl, rfl⟩ | ⟨rfl, rfl⟩
  all_goals exact ⟨rfl, ⟨by decide⟩⟩

namespace IntType

variable {t : IntType}

theorem IsMachine.pos (h : t.IsMachine) : 0 < t.width := by
  have hw := h.width
  omega

theorem IsMachine.le_64 (h : t.IsMachine) : t.width ≤ 64 := by
  have hw := h.width
  omega

theorem promoted_of_short (h : t.width < 32) : t.promoted = ⟨true, 32⟩ := if_pos h

theorem promoted_of_long (h : 32 ≤ t.width) : t.promoted = t := if_neg (Nat.not_lt.mpr h)

theorem width_le_promoted (t : IntType) : t.width ≤ t.promoted.width := by
  rcases Nat.lt_or_ge t.width 32 with hlt | hge
  · rw [promoted_of_short hlt]
    exact Nat.le_of_lt hlt
  · rw [promoted_of_long hge]

/-! ### Results that are cut -/

theorem convert_eq_add_mul (t : IntType) (x : Int) :
    ∃ k : Int, t.convert x = x + k * 2 ^ t.width := by
  unfold convert
  split
  · refine ⟨-((x + 2 ^ (t.width - 1)) / 2 ^ t.width), ?_⟩
    have hdiv := Int.mul_ediv_add_emod (x + 2 ^ (t.width - 1)) (2 ^ t.width)
    unfold narrow
    linarith
  · refine ⟨-(x / 2 ^ t.width), ?_⟩
    have hdiv := Int.mul_ediv_add_emod x (2 ^ t.width)
    linarith

theorem convert_convert {t u : IntType} (h : t.width ≤ u.width) (x : Int) :
    t.convert (u.convert x) = t.convert x := by
  obtain ⟨k, hk⟩ := u.convert_eq_add_mul x
  have hpow : (2 : Int) ^ u.width = 2 ^ (u.width - t.width) * 2 ^ t.width := by
    rw [← pow_add, Nat.sub_add_cancel h]
  rw [hk, hpow, ← mul_assoc, convert_add_mul]

theorem machineResult_eq (t : IntType) (r : Int) :
    t.machineResult r = if t.promoted.signed = true ∧ ¬t.promoted.Contains r then .error overflow
      else .ok (t.convert r) := by
  rw [machineResult, convert_convert t.width_le_promoted]

/-- A result for which an operation is undefined: one that a long signed type does not contain,
or one of `uint16_t` operands that `int` does not contain. -/
def Undefined (t : IntType) (r : Int) : Prop :=
  (t.signed = true ∧ 32 ≤ t.width ∧ ¬t.Contains r) ∨
    (t.signed = false ∧ t.width = 16 ∧ 2 ^ 31 ≤ r)

instance (t : IntType) (r : Int) : Decidable (t.Undefined r) :=
  inferInstanceAs (Decidable (_ ∨ _))

/-- What is known of the results of operations on a short type: they are no less than the
smallest `int`, and only those of `uint16_t` can be larger than the largest. -/
def Moderate (t : IntType) (r : Int) : Prop :=
  t.width < 32 → -2 ^ 31 ≤ r ∧ (r < 2 ^ 31 ∨ t.signed = false ∧ t.width = 16)

theorem Moderate.undefined_iff {r : Int} (h : t.Moderate r) :
    (t.promoted.signed = true ∧ ¬t.promoted.Contains r) ↔ t.Undefined r := by
  unfold Undefined
  rcases Nat.lt_or_ge t.width 32 with hlt | hge
  · obtain ⟨hlo, hhi⟩ := h hlt
    have hint : (⟨true, 32⟩ : IntType).Contains r ↔ r < 2 ^ 31 :=
      (contains_signed rfl r).trans (and_iff_right hlo)
    rw [promoted_of_short hlt, hint, not_lt]
    constructor
    · rintro ⟨-, hle⟩
      rcases hhi with hlt' | hshort
      · exact absurd hlt' (not_lt.mpr hle)
      · exact .inr ⟨hshort.1, hshort.2, hle⟩
    · rintro (⟨-, hge, -⟩ | ⟨-, -, hle⟩)
      · exact absurd hlt (Nat.not_lt.mpr hge)
      · exact ⟨rfl, hle⟩
  · rw [promoted_of_long hge]
    constructor
    · rintro ⟨hsigned, hout⟩
      exact .inl ⟨hsigned, hge, hout⟩
    · rintro (⟨hsigned, -, hout⟩ | ⟨-, hshort, -⟩)
      · exact ⟨hsigned, hout⟩
      · exact absurd hge (by omega)

theorem IsMachine.cases_short (hm : t.IsMachine) (hshort : t.width < 32) {a : Int}
    (h : t.Contains a) :
    (-2 ^ 15 ≤ a ∧ a < 2 ^ 15) ∨ (t.signed = false ∧ t.width = 16 ∧ 0 ≤ a ∧ a < 2 ^ 16) := by
  rcases hm.width with hw | hw | hw | hw
  · left
    cases hsigned : t.signed with
    | true =>
        rw [contains_signed hsigned, hw] at h
        omega
    | false =>
        rw [contains_unsigned hsigned, hw] at h
        omega
  · cases hsigned : t.signed with
    | true =>
        rw [contains_signed hsigned, hw] at h
        exact .inl ⟨by omega, by omega⟩
    | false =>
        rw [contains_unsigned hsigned, hw] at h
        exact .inr ⟨rfl, hw, h.1, h.2⟩
  · omega
  · omega

section Bounds

variable {a b : Int}

theorem moderate_add (hm : t.IsMachine) (ha : t.Contains a) (hb : t.Contains b) :
    t.Moderate (a + b) := by
  intro hshort
  have ha := hm.cases_short hshort ha
  have hb := hm.cases_short hshort hb
  omega

theorem moderate_sub (hm : t.IsMachine) (ha : t.Contains a) (hb : t.Contains b) :
    t.Moderate (a - b) := by
  intro hshort
  have ha := hm.cases_short hshort ha
  have hb := hm.cases_short hshort hb
  omega

theorem moderate_neg (hm : t.IsMachine) (ha : t.Contains a) : t.Moderate (-a) := by
  intro hshort
  have ha := hm.cases_short hshort ha
  omega

theorem moderate_mul (hm : t.IsMachine) (ha : t.Contains a) (hb : t.Contains b) :
    t.Moderate (a * b) := by
  intro hshort
  by_cases hword : t.signed = false ∧ t.width = 16
  · have ha := ha
    have hb := hb
    rw [contains_unsigned hword.1] at ha hb
    have hpos := Int.mul_nonneg ha.1 hb.1
    exact ⟨by omega, .inr hword⟩
  · have ha := (hm.cases_short hshort ha).resolve_right fun h => hword ⟨h.1, h.2.1⟩
    have hb := (hm.cases_short hshort hb).resolve_right fun h => hword ⟨h.1, h.2.1⟩
    have hnat : (a * b).natAbs ≤ 2 ^ 15 * 2 ^ 15 := by
      rw [Int.natAbs_mul]
      exact Nat.mul_le_mul (by omega) (by omega)
    omega

end Bounds

/-! ### Bits -/

theorem setWidth_ofInt {w n : Nat} (h : w ≤ n) (x : Int) :
    (BitVec.ofInt n x).setWidth w = BitVec.ofInt w x := by
  have hpos : ∀ k : Nat, (0 : Int) ≤ x % ((2 ^ k : Nat) : Int) :=
    fun k => Int.emod_nonneg _ (by positivity)
  have hdvd : ((2 ^ w : Nat) : Int) ∣ ((2 ^ n : Nat) : Int) :=
    Int.natCast_dvd_natCast.mpr (pow_dvd_pow 2 h)
  apply BitVec.eq_of_toNat_eq
  apply Int.ofNat_inj.mp
  rw [BitVec.toNat_setWidth, BitVec.toNat_ofInt, BitVec.toNat_ofInt, Int.natCast_emod,
    Int.toNat_of_nonneg (hpos n), Int.toNat_of_nonneg (hpos w), Int.emod_emod_of_dvd x hdvd]

theorem toBits_ofBits (t : IntType) (v : BitVec t.width) : t.toBits (t.ofBits v) = v := by
  unfold toBits ofBits
  split
  · exact BitVec.ofInt_toInt
  · rw [BitVec.ofInt_natCast, BitVec.ofNat_toNat, BitVec.setWidth_eq]

theorem toBits_convert (t : IntType) (x : Int) : t.toBits (t.convert x) = t.toBits x := by
  obtain ⟨k, hk⟩ := t.convert_eq_add_mul x
  apply BitVec.eq_of_toNat_eq
  unfold toBits
  rw [hk, BitVec.toNat_ofInt, BitVec.toNat_ofInt, Int.natCast_pow, Nat.cast_ofNat,
    Int.add_mul_emod_self_right]

/-- The low bits of the result are those of the operation on the promoted operands. -/
theorem toBits_machineBits {v : BitVec t.promoted.width} {x : Int}
    (h : t.machineBits v = .ok x) : t.toBits x = v.setWidth t.width ∧ x = t.convert x := by
  cases h
  have hbits := t.promoted.toBits_ofBits v
  refine ⟨?_, ?_⟩
  · calc t.toBits (t.convert (t.promoted.ofBits v)) = t.toBits (t.promoted.ofBits v) :=
          toBits_convert t _
      _ = (t.promoted.toBits (t.promoted.ofBits v)).setWidth t.width :=
          (setWidth_ofInt t.width_le_promoted _).symm
      _ = v.setWidth t.width := by rw [hbits]
  · rw [convert_convert (Nat.le_refl _)]

/-! ### Shifts -/

theorem promoted_width (t : IntType) : t.promoted.width = Max.max 32 t.width := by
  rcases Nat.lt_or_ge t.width 32 with hlt | hge
  · rw [promoted_of_short hlt]
    exact (Nat.max_eq_left (Nat.le_of_lt hlt)).symm
  · rw [promoted_of_long hge, Nat.max_eq_right hge]

/-- A `UINT1` that is read as a value of another type is the number it is, except that `INT1` reads
a negative one where it is too large to shift by anyway. -/
theorem IsMachine.convert_count (hm : t.IsMachine) {c : Nat} (hc : c < 2 ^ 8) :
    t.convert c = c ∨ t.convert c < 0 ∧ t.promoted.width ≤ c := by
  by_cases hin : t.Contains c
  · exact .inl (convert_of_contains hm.pos hin)
  · have hwidth := hm.width
    cases hsigned : t.signed with
    | false =>
        rw [contains_unsigned hsigned, not_and, not_lt] at hin
        have hle := hin (Int.natCast_nonneg c)
        rcases hwidth with hw | hw | hw | hw
        all_goals
          rw [hw] at hle
          omega
    | true =>
        rw [contains_signed hsigned, not_and, not_lt] at hin
        rcases hwidth with hw | hw | hw | hw
        · rw [hw] at hin
          have hle := hin (by omega)
          refine .inr ⟨?_, ?_⟩
          · rw [convert, hsigned, if_pos rfl, hw, narrow]
            omega
          · rw [promoted_width, hw]
            omega
        all_goals
          rw [hw] at hin
          have hle := hin (by omega)
          omega

theorem contains_shr {a : Int} (h : t.Contains a) (c : Nat) : t.Contains (a / 2 ^ c) := by
  have hpos : (0 : Int) < 2 ^ c := by positivity
  rcases lt_or_ge a 0 with hneg | hnonneg
  · have hlo : a ≤ a / 2 ^ c := by
      rw [Int.le_ediv_iff_mul_le hpos]
      nlinarith
    have hhi : a / 2 ^ c < 0 := Int.ediv_neg_of_neg_of_pos hneg hpos
    obtain ⟨hmin, hmax⟩ := h
    have hmaxNonneg : 0 ≤ t.max := by
      have hpow : (0 : Int) < 2 ^ (t.width - 1) := by positivity
      have hpow' : (0 : Int) < 2 ^ t.width := by positivity
      unfold max
      split <;> omega
    exact ⟨by omega, by omega⟩
  · have hlo : 0 ≤ a / 2 ^ c := Int.ediv_nonneg hnonneg (Int.le_of_lt hpos)
    have hhi : a / 2 ^ c ≤ a := Int.ediv_le_self _ hnonneg
    obtain ⟨hmin, hmax⟩ := h
    have hminNonpos : t.min ≤ 0 := by
      have hpow : (0 : Int) < 2 ^ (t.width - 1) := by positivity
      unfold min
      split <;> omega
    exact ⟨by omega, by omega⟩

end IntType

section Calls

variable {t : IntType} {d₀ d₁ : Datum}

theorem functionCall_intUnary (h₀ : d₀.isnull = false) (op : Int → Except Failure Int) :
    functionCall (some (intUnary t op)) [d₀] = (op (t.get d₀)).map .ofInt := by
  change (if d₀.isnull then _ else _) = _
  rw [h₀, if_neg Bool.false_ne_true]
  cases op (t.get d₀) <;> rfl

theorem functionCall_intBinary (h₀ : d₀.isnull = false) (h₁ : d₁.isnull = false)
    (get₁ : Datum → Int) (op : Int → Int → Except Failure Int) :
    functionCall (some (intBinary t get₁ op)) [d₀, d₁] =
      (op (t.get d₀) (get₁ d₁)).map .ofInt := by
  change (if d₀.isnull || d₁.isnull then _ else _) = _
  rw [h₀, h₁, if_neg (by decide)]
  cases op (t.get d₀) (get₁ d₁) <;> rfl

/-- A call returns the result `r`, as far as the type can hold it: it is undefined exactly when
`r` is, and else it returns the value of the type that agrees with `r` modulo the width, which is
`r` if the type contains it. -/
structure ReturnsResult (t : IntType) (call : Except Failure Datum) (r : Int) : Prop where
  undefined_iff : call = .error IntType.overflow ↔ t.Undefined r
  returns : ¬t.Undefined r → ∃ d k, call = .ok d ∧ t.get d = r + k * 2 ^ t.width ∧
    t.Contains (t.get d) ∧ (t.get d = r ↔ t.Contains r)

theorem returns_machineResult (hm : t.IsMachine) {r : Int}
    (h : ¬(t.promoted.signed = true ∧ ¬t.promoted.Contains r)) :
    ∃ d k, (t.machineResult r).map .ofInt = .ok d ∧ t.get d = r + k * 2 ^ t.width ∧
      t.Contains (t.get d) ∧ (t.get d = r ↔ t.Contains r) := by
  obtain ⟨k, hk⟩ := t.convert_eq_add_mul r
  have hcontains := IntType.contains_convert hm.pos r
  have hget := IntType.get_ofInt_of_contains hm.pos hm.le_64 hcontains
  rw [IntType.machineResult_eq, if_neg h]
  refine ⟨.ofInt (t.convert r), k, rfl, ?_, ?_, ?_⟩
  · rw [hget, hk]
  · rw [hget]
    exact hcontains
  · rw [hget]
    exact ⟨fun heq => heq ▸ hcontains, IntType.convert_of_contains hm.pos⟩

theorem returnsResult (hm : t.IsMachine) {r : Int} (hr : t.Moderate r) :
    ReturnsResult t ((t.machineResult r).map .ofInt) r := by
  have hiff := hr.undefined_iff
  refine ⟨?_, fun hdefined => returns_machineResult hm (mt hiff.mp hdefined)⟩
  rw [IntType.machineResult_eq, ← hiff]
  split
  · rename_i hundefined
    exact iff_of_true rfl hundefined
  · rename_i hdefined
    refine iff_of_false (fun h => ?_) hdefined
    cases h

/-- The sums, differences, products and negatives of every integer type. They are undefined only
for results that a long signed type cannot hold, and for products of two `uint16_t` from
`2 ^ 31` on; everywhere else they are right modulo the width, and right if the type can hold
the result. -/
theorem intArithmetic_returns {f : IntTypsupp} (hf : (t, f) ∈ intTypsupps)
    (h₀ : d₀.isnull = false) (h₁ : d₁.isnull = false) :
    ReturnsResult t (functionCall (some f.add) [d₀, d₁]) (t.get d₀ + t.get d₁) ∧
      ReturnsResult t (functionCall (some f.sub) [d₀, d₁]) (t.get d₀ - t.get d₁) ∧
      ReturnsResult t (functionCall (some f.mul) [d₀, d₁]) (t.get d₀ * t.get d₁) ∧
      ReturnsResult t (functionCall (some f.neg) [d₀]) (-t.get d₀) := by
  obtain ⟨rfl, hm⟩ := mem_intTypsupps hf
  have ha := IntType.contains_get hm.pos d₀
  have hb := IntType.contains_get hm.pos d₁
  refine ⟨?_, ?_, ?_, ?_⟩
  · rw [intTypsupp, functionCall_intBinary h₀ h₁]
    exact returnsResult hm (IntType.moderate_add hm ha hb)
  · rw [intTypsupp, functionCall_intBinary h₀ h₁]
    exact returnsResult hm (IntType.moderate_sub hm ha hb)
  · rw [intTypsupp, functionCall_intBinary h₀ h₁]
    exact returnsResult hm (IntType.moderate_mul hm ha hb)
  · rw [intTypsupp, functionCall_intUnary h₀]
    exact returnsResult hm (IntType.moderate_neg hm ha)

/-- The largest `UINT2` by itself: the product is too large for an `int`. -/
theorem intArithmetic_returns_sample :
    functionCall (some uint2.mul) [.ofInt 65535, .ofInt 65535] = .error IntType.overflow := by
  have hmul := (@intArithmetic_returns ⟨false, 16⟩ (.ofInt 65535) (.ofInt 65535) uint2
    (by simp [intTypsupps]) rfl rfl).2.2.1
  exact hmul.undefined_iff.mpr (.inr ⟨rfl, rfl, by decide⟩)

def ReturnsBits (t : IntType) (call : Except Failure Datum) (v : BitVec t.width) : Prop :=
  ∃ d, call = .ok d ∧ t.Contains (t.get d) ∧ t.toBits (t.get d) = v

theorem returnsBits (hm : t.IsMachine) {v : BitVec t.promoted.width} {v' : BitVec t.width}
    (hv : v.setWidth t.width = v') : ReturnsBits t ((t.machineBits v).map .ofInt) v' := by
  obtain ⟨hbits, hconvert⟩ := IntType.toBits_machineBits (t := t) (v := v) rfl
  have hcontains : t.Contains (t.convert (t.promoted.ofBits v)) := IntType.contains_convert hm.pos _
  have hget := IntType.get_ofInt_of_contains hm.pos hm.le_64 hcontains
  refine ⟨_, rfl, ?_, ?_⟩
  · rw [hget]
    exact hcontains
  · rw [hget, hbits, hv]

/-- The bitwise operators of every integer type work on the bits of the type, whatever the width
of the promoted operands is, and are never undefined. -/
theorem intBits_returns {f : IntTypsupp} (hf : (t, f) ∈ intTypsupps)
    (h₀ : d₀.isnull = false) (h₁ : d₁.isnull = false) :
    ReturnsBits t (functionCall (some f.not) [d₀]) (~~~t.toBits (t.get d₀)) ∧
      ReturnsBits t (functionCall (some f.and) [d₀, d₁])
        (t.toBits (t.get d₀) &&& t.toBits (t.get d₁)) ∧
      ReturnsBits t (functionCall (some f.or) [d₀, d₁])
        (t.toBits (t.get d₀) ||| t.toBits (t.get d₁)) ∧
      ReturnsBits t (functionCall (some f.xor) [d₀, d₁])
        (t.toBits (t.get d₀) ^^^ t.toBits (t.get d₁)) := by
  obtain ⟨rfl, hm⟩ := mem_intTypsupps hf
  have hbits : ∀ x, (t.promoted.toBits x).setWidth t.width = t.toBits x :=
    fun x => IntType.setWidth_ofInt t.width_le_promoted x
  refine ⟨?_, ?_, ?_, ?_⟩
  · rw [intTypsupp, functionCall_intUnary h₀]
    exact returnsBits hm (by rw [BitVec.setWidth_not t.width_le_promoted, hbits])
  · rw [intTypsupp, functionCall_intBinary h₀ h₁]
    exact returnsBits hm (by rw [BitVec.setWidth_and, hbits, hbits])
  · rw [intTypsupp, functionCall_intBinary h₀ h₁]
    exact returnsBits hm (by rw [BitVec.setWidth_or, hbits, hbits])
  · rw [intTypsupp, functionCall_intBinary h₀ h₁]
    exact returnsBits hm (by rw [BitVec.setWidth_xor, hbits, hbits])

theorem intBits_returns_sample :
    ReturnsBits ⟨false, 8⟩ (functionCall (some uint1.not) [.ofInt 1]) 0xFE#8 :=
  (@intBits_returns ⟨false, 8⟩ (.ofInt 1) (.ofInt 1) uint1 (by simp [intTypsupps]) rfl rfl).1

def IntType.ShlUndefined (t : IntType) (a : Int) (c : Nat) : Prop :=
  t.promoted.signed = true ∧ (a < 0 ∨ ¬t.promoted.Contains (a * 2 ^ c))

theorem machineShl_undefined_iff {a : Int} {c : Nat} :
    (if t.promoted.signed = true ∧ a < 0 then .error IntType.overflow
      else t.machineResult (a * 2 ^ c)).map Datum.ofInt = .error IntType.overflow ↔
        t.ShlUndefined a c := by
  unfold IntType.ShlUndefined
  rw [and_or_left, IntType.machineResult_eq]
  split
  · rename_i hneg
    exact iff_of_true rfl (.inl hneg)
  · rename_i hneg
    rw [or_iff_right hneg]
    split
    · rename_i hout
      exact iff_of_true rfl hout
    · rename_i hin
      refine iff_of_false (fun h => ?_) hin
      cases h

/-- The shifts of every integer type by a `UINT1`: both are undefined from the width of the
promoted operand on, as which the number is read whether it is read as a `UINT1` or not. Before
that, the shift to the right returns the quotient rounded down, and the one to the left the
product with the power of two, modulo the width, where it is defined. -/
theorem intShift_returns {f : IntTypsupp} (hf : (t, f) ∈ intTypsupps) (h₀ : d₀.isnull = false)
    {c : Nat} (hc : c < 2 ^ 8) :
    (max 32 t.width ≤ c →
      functionCall (some f.lsh) [d₀, .ofInt c] = .error IntType.shiftCount ∧
        functionCall (some f.rsh) [d₀, .ofInt c] = .error IntType.shiftCount) ∧
    (c < max 32 t.width →
      (functionCall (some f.lsh) [d₀, .ofInt c] = .error IntType.overflow ↔
          t.ShlUndefined (t.get d₀) c) ∧
        (¬t.ShlUndefined (t.get d₀) c → ∃ d k,
          functionCall (some f.lsh) [d₀, .ofInt c] = .ok d ∧
            t.get d = t.get d₀ * 2 ^ c + k * 2 ^ t.width ∧ t.Contains (t.get d) ∧
            (t.get d = t.get d₀ * 2 ^ c ↔ t.Contains (t.get d₀ * 2 ^ c))) ∧
        ∃ d, functionCall (some f.rsh) [d₀, .ofInt c] = .ok d ∧
          t.get d = t.get d₀ / 2 ^ c) := by
  obtain ⟨rfl, hm⟩ := mem_intTypsupps hf
  have hwidth := t.promoted_width
  have hlsh : functionCall (some (intTypsupp t).lsh) [d₀, .ofInt c] =
      (t.machineShl (t.get d₀) (t.convert c)).map .ofInt := by
    rw [intTypsupp, functionCall_intBinary h₀ rfl, IntType.get_ofInt hm.le_64]
  have hrsh : functionCall (some (intTypsupp t).rsh) [d₀, .ofInt c] =
      (t.machineShr (t.get d₀) (t.convert c)).map .ofInt := by
    have hread : (Datum.ofInt c).getUInt 8 = c := by
      change (BitVec.ofInt 64 c).toNat % 2 ^ 8 = c
      rw [BitVec.ofInt_natCast, BitVec.toNat_ofNat]
      omega
    rw [intTypsupp, functionCall_intBinary h₀ rfl, hread]
  rw [hlsh, hrsh]
  constructor
  · intro hfar
    have hcount : t.convert c < 0 ∨ t.promoted.width ≤ t.convert c := by
      rcases hm.convert_count hc with heq | ⟨hneg, -⟩
      · rw [heq]
        exact .inr (by omega)
      · exact .inl hneg
    rw [IntType.machineShl, IntType.machineShr, if_pos hcount, if_pos hcount]
    exact ⟨rfl, rfl⟩
  · intro hnear
    have heq : t.convert c = c :=
      (hm.convert_count hc).resolve_right fun h => absurd h.2 (by omega)
    have hcount : ¬(t.convert c < 0 ∨ t.promoted.width ≤ t.convert c) := by
      rw [heq]
      omega
    rw [IntType.machineShl, IntType.machineShr, if_neg hcount, if_neg hcount, heq,
      Int.toNat_natCast]
    refine ⟨?_, ?_, ?_⟩
    · rw [machineShl_undefined_iff]
    · intro hdefined
      obtain ⟨hneg, hout⟩ := not_or.mp (mt and_or_left.mpr hdefined)
      rw [if_neg hneg]
      exact returns_machineResult hm hout
    · have hcontains := IntType.contains_shr (IntType.contains_get hm.pos d₀) c
      exact ⟨_, rfl, by
        rw [IntType.convert_of_contains hm.pos hcontains,
          IntType.get_ofInt_of_contains hm.pos hm.le_64 hcontains]⟩

theorem intShift_returns_sample :
    functionCall (some int1.lsh) [.ofInt 1, .ofInt 200] = .error IntType.shiftCount :=
  ((@intShift_returns ⟨true, 8⟩ (.ofInt 1) int1 (by simp [intTypsupps]) rfl 200
    (by decide)).1 (by decide)).1

end Calls

end Taco
