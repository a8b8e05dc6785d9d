import TacoDB.Utils.CharTypes
import TacoDB.Utils.MachineIntegers

/-!
# Integer division

The division and remainder functions of the integer types. The operands of the
short types are promoted to `int`, where the division is exact, and the result is
converted back; those of the others are divided as they are. The only quotient
that is no value of the type is that of the smallest value of a signed type by
minus one. A short type wraps there, and the division of a long one is
undefined.
-/

namespace Taco

namespace IntType

/-- The type in which an operation on operands of type `t` is carried out. -/
def promoted (t : IntType) : IntType := if t.width < 32 then ⟨true, 32⟩ else t

def overflow : Failure := .undefined "signed integer overflow"

/-- `arg0 / arg1`, converted to the type. -/
def machineDiv (t : IntType) (arg0 arg1 : Int) : Except Failure Int :=
  if t.promoted.signed ∧ arg0 = t.promoted.min ∧ arg1 = -1 then .error overflow
  else .ok (t.convert (arg0.tdiv arg1))

/-- `arg0 % arg1`, converted to the type; it is undefined where the quotient is. -/
def machineMod (t : IntType) (arg0 arg1 : Int) : Except Failure Int :=
  if t.promoted.signed ∧ arg0 = t.promoted.min ∧ arg1 = -1 then .error overflow
  else .ok (t.convert (arg0.tmod arg1))

end IntType

def divisionByZero : Failure := .tdbError .kError "division by zero"

def intDivision (op : IntType → Int → Int → Except Failure Int) (t : IntType) : FunctionInfo :=
  fun info => do
    let d₀ ← info.arg 0
    let d₁ ← info.arg 1
    if d₀.isnull || d₁.isnull then return .null
    else
      let arg1 := t.get d₁
      if arg1 = 0 then .error divisionByZero
      else
        let res ← op t (t.get d₀) arg1
        return .ofInt res

def int1Div : FunctionInfo := intDivision IntType.machineDiv ⟨true, 8⟩

def int1Mod : FunctionInfo := intDivision IntType.machineMod ⟨true, 8⟩

def int2Div : FunctionInfo := intDivision IntType.machineDiv ⟨true, 16⟩

def int2Mod : FunctionInfo := intDivision IntType.machineMod ⟨true, 16⟩

def int4Div : FunctionInfo := intDivision IntType.machineDiv ⟨true, 32⟩

def int4Mod : FunctionInfo := intDivision IntType.machineMod ⟨true, 32⟩

def int8Div : FunctionInfo := intDivision IntType.machineDiv ⟨true, 64⟩

def int8Mod : FunctionInfo := intDivision IntType.machineMod ⟨true, 64⟩

def uint1Div : FunctionInfo := intDivision IntType.machineDiv ⟨false, 8⟩

def uint1Mod : FunctionInfo := intDivision IntType.machineMod ⟨false, 8⟩

def uint2Div : FunctionInfo := intDivision IntType.machineDiv ⟨false, 16⟩

def uint2Mod : FunctionInfo := intDivision IntType.machineMod ⟨false, 16⟩

def uint4Div : FunctionInfo := intDivision IntType.machineDiv ⟨false, 32⟩

def uint4Mod : FunctionInfo := intDivision IntType.machineMod ⟨false, 32⟩

def uint8Div : FunctionInfo := intDivision IntType.machineDiv ⟨false, 64⟩

def uint8Mod : FunctionInfo := intDivision IntType.machineMod ⟨false, 64⟩

def divisions : List (IntType × FunctionInfo × FunctionInfo) :=
  [(⟨true, 8⟩, int1Div, int1Mod), (⟨true, 16⟩, int2Div, int2Mod),
    (⟨true, 32⟩, int4Div, int4Mod), (⟨true, 64⟩, int8Div, int8Mod),
    (⟨false, 8⟩, uint1Div, uint1Mod), (⟨false, 16⟩, uint2Div, uint2Mod),
    (⟨false, 32⟩, uint4Div, uint4Mod), (⟨false, 64⟩, uint8Div, uint8Mod)]

/-- Division of one value by another is exact or an error. -/
structure DivisionExact (t : IntType) (div mod : FunctionInfo) (d₀ d₁ : Datum) : Prop where
  div_zero_iff : div ⟨[d₀, d₁], 0⟩ = .error divisionByZero ↔ t.get d₁ = 0
  mod_zero_iff : mod ⟨[d₀, d₁], 0⟩ = .error divisionByZero ↔ t.get d₁ = 0
  div_defined : ∀ what, div ⟨[d₀, d₁], 0⟩ ≠ .error (.undefined what)
  mod_defined : ∀ what, mod ⟨[d₀, d₁], 0⟩ ≠ .error (.undefined what)
  /-- The quotient is returned, or it is not representable and there is an error. -/
  quotient : t.get d₁ ≠ 0 →
    (∃ q, div ⟨[d₀, d₁], 0⟩ = .ok q ∧ t.get q = (t.get d₀).tdiv (t.get d₁)) ∨
      (¬t.Contains ((t.get d₀).tdiv (t.get d₁)) ∧ ∃ e, div ⟨[d₀, d₁], 0⟩ = .error e)
  /-- The remainder is returned whenever the quotient is representable. -/
  remainder : t.get d₁ ≠ 0 → t.Contains ((t.get d₀).tdiv (t.get d₁)) →
    ∃ r, mod ⟨[d₀, d₁], 0⟩ = .ok r
  exact : ∀ q r, div ⟨[d₀, d₁], 0⟩ = .ok q → mod ⟨[d₀, d₁], 0⟩ = .ok r →
    t.get q * t.get d₁ + t.get r = t.get d₀

namespace IntType

variable {t : IntType} {a b : Int}

def Overflows (t : IntType) (a b : Int) : Prop := t.signed = true ∧ a = t.min ∧ b = -1

instance (t : IntType) (a b : Int) : Decidable (t.Overflows a b) :=
  inferInstanceAs (Decidable (_ ∧ _ ∧ _))

theorem natAbs_lt_iff {x : Int} {m : Nat} : x.natAbs < m ↔ -(m : Int) < x ∧ x < m := by
  omega

theorem contains_of_natAbs_lt (ht : t.signed = true) {x : Int}
    (h : x.natAbs < 2 ^ (t.width - 1)) : t.Contains x := by
  rw [contains_signed ht]
  have hlt := natAbs_lt_iff.mp h
  rw [Int.natCast_pow] at hlt
  exact ⟨hlt.1.le, hlt.2⟩

theorem natAbs_le_of_contains (ht : t.signed = true) {x : Int} (h : t.Contains x) :
    x.natAbs ≤ 2 ^ (t.width - 1) ∧ (x.natAbs = 2 ^ (t.width - 1) → x = t.min) := by
  rw [contains_signed ht] at h
  have hcast : ((2 ^ (t.width - 1) : Nat) : Int) = 2 ^ (t.width - 1) := Int.natCast_pow 2 _
  have hmin : t.min = -2 ^ (t.width - 1) := by
    unfold min
    rw [ht, if_pos rfl]
  omega

theorem contains_tdiv (ha : t.Contains a) (hb : t.Contains b) (hne : b ≠ 0)
    (h : ¬t.Overflows a b) : t.Contains (a.tdiv b) := by
  have hdiv : (a.tdiv b).natAbs = a.natAbs / b.natAbs := Int.natAbs_tdiv a b
  cases ht : t.signed with
  | true =>
      obtain ⟨hle, hmin⟩ := natAbs_le_of_contains ht ha
      by_cases hone : b.natAbs = 1
      · rcases Int.natAbs_eq_iff.mp hone with h1 | h1
        · rw [h1, Nat.cast_one, Int.tdiv_one]
          exact ha
        · apply contains_of_natAbs_lt ht
          rw [hdiv, hone, Nat.div_one]
          exact lt_of_le_of_ne hle fun heq => h ⟨ht, hmin heq, by simpa using h1⟩
      · apply contains_of_natAbs_lt ht
        have htwo : 2 ≤ b.natAbs := by omega
        have hhalf : a.natAbs / b.natAbs ≤ a.natAbs / 2 := Nat.div_le_div_left htwo (by decide)
        have hpos : 0 < 2 ^ (t.width - 1) := Nat.two_pow_pos _
        omega
  | false =>
      rw [contains_unsigned ht] at ha hb ⊢
      have hle : a.natAbs / b.natAbs ≤ a.natAbs := Nat.div_le_self _ _
      have hnonneg : 0 ≤ a.tdiv b := Int.tdiv_nonneg ha.1 hb.1
      omega

theorem contains_tmod (ha : t.Contains a) (hb : t.Contains b) (hne : b ≠ 0) :
    t.Contains (a.tmod b) := by
  have hmod : (a.tmod b).natAbs = a.natAbs % b.natAbs := Int.natAbs_tmod a b
  have hlt : a.natAbs % b.natAbs < b.natAbs := Nat.mod_lt _ (by omega)
  cases ht : t.signed with
  | true =>
      obtain ⟨hle, -⟩ := natAbs_le_of_contains ht hb
      apply contains_of_natAbs_lt ht
      omega
  | false =>
      rw [contains_unsigned ht] at ha hb ⊢
      have hnonneg : 0 ≤ a.tmod b := Int.tmod_nonneg b ha.1
      omega

/-- A value of a short type is not the smallest `int`, so the promoted operation
is defined. -/
theorem promoted_overflows (hpos : 0 < t.width) (ha : t.Contains a) :
    (t.promoted.signed = true ∧ a = t.promoted.min ∧ b = -1) ↔
      32 ≤ t.width ∧ t.Overflows a b := by
  by_cases hw : t.width < 32
  · have hne : a ≠ t.promoted.min := by
      have hmin : t.promoted.min = -2 ^ 31 := by rw [promoted, if_pos hw]; rfl
      rw [hmin]
      cases ht : t.signed with
      | true =>
          have hle : (2 : Int) ^ (t.width - 1) ≤ 2 ^ 30 := pow_le_pow_right₀ (by decide) (by omega)
          rw [contains_signed ht] at ha
          omega
      | false =>
          rw [contains_unsigned ht] at ha
          omega
    exact ⟨fun h => absurd h.2.1 hne, fun h => by omega⟩
  · rw [promoted, if_neg hw]
    exact ⟨fun h => ⟨Nat.le_of_not_lt hw, h⟩, fun h => h.2⟩

theorem machineDiv_eq (hpos : 0 < t.width) (ha : t.Contains a) (hb : t.Contains b) (hne : b ≠ 0)
    (h : ¬t.Overflows a b) : t.machineDiv a b = .ok (a.tdiv b) := by
  unfold machineDiv
  rw [if_neg fun hc => h ((promoted_overflows hpos ha).mp hc).2,
    convert_of_contains hpos (contains_tdiv ha hb hne h)]

theorem machineMod_eq (hpos : 0 < t.width) (ha : t.Contains a) (hb : t.Contains b) (hne : b ≠ 0)
    (h : ¬t.Overflows a b) : t.machineMod a b = .ok (a.tmod b) := by
  unfold machineMod
  rw [if_neg fun hc => h ((promoted_overflows hpos ha).mp hc).2,
    convert_of_contains hpos (contains_tmod ha hb hne)]

theorem not_contains_tdiv (h : t.Overflows a b) : ¬t.Contains (a.tdiv b) := by
  obtain ⟨ht, rfl, rfl⟩ := h
  have hmin : t.min = -2 ^ (t.width - 1) := by
    unfold min
    rw [ht, if_pos rfl]
  rw [contains_signed ht, Int.tdiv_neg, Int.tdiv_one, hmin, Int.neg_neg]
  exact fun hc => lt_irrefl _ hc.2

end IntType

section

variable {t : IntType} {op : IntType → Int → Int → Except Failure Int} {d₀ d₁ : Datum}

theorem intDivision_eq (h₀ : d₀.isnull = false) (h₁ : d₁.isnull = false) :
    intDivision op t ⟨[d₀, d₁], 0⟩ =
      if t.get d₁ = 0 then .error divisionByZero
      else (op t (t.get d₀) (t.get d₁)).map .ofInt := by
  change (if d₀.isnull || d₁.isnull then _ else _) = _
  rw [h₀, h₁, if_neg (by decide)]
  by_cases hzero : t.get d₁ = 0
  · rw [if_pos hzero, if_pos hzero]
  · rw [if_neg hzero, if_neg hzero]
    cases op t (t.get d₀) (t.get d₁) <;> rfl

theorem divisionExact_of_zero (h₀ : d₀.isnull = false) (h₁ : d₁.isnull = false)
    (hzero : t.get d₁ = 0) :
    DivisionExact t (intDivision IntType.machineDiv t) (intDivision IntType.machineMod t) d₀ d₁ := by
  have heq : ∀ op, intDivision op t ⟨[d₀, d₁], 0⟩ = .error divisionByZero := fun op => by
    rw [intDivision_eq h₀ h₁, if_pos hzero]
  refine ⟨⟨fun _ => hzero, fun _ => heq _⟩, ⟨fun _ => hzero, fun _ => heq _⟩, ?_, ?_,
    fun hne => absurd hzero hne, fun hne => absurd hzero hne, ?_⟩
  · intro what h
    rw [heq] at h
    cases h
  · intro what h
    rw [heq] at h
    cases h
  · intro q r hq
    rw [heq] at hq
    cases hq

theorem divisionExact_of_not_overflows (hpos : 0 < t.width) (hw : t.width ≤ 64)
    (h₀ : d₀.isnull = false) (h₁ : d₁.isnull = false) (hne : t.get d₁ ≠ 0)
    (h : ¬t.Overflows (t.get d₀) (t.get d₁)) :
    DivisionExact t (intDivision IntType.machineDiv t) (intDivision IntType.machineMod t) d₀ d₁ := by
  have ha := IntType.contains_get hpos d₀
  have hb := IntType.contains_get hpos d₁
  have hdiv : intDivision IntType.machineDiv t ⟨[d₀, d₁], 0⟩ =
      .ok (.ofInt ((t.get d₀).tdiv (t.get d₁))) := by
    rw [intDivision_eq h₀ h₁, if_neg hne, IntType.machineDiv_eq hpos ha hb hne h]
    rfl
  have hmod : intDivision IntType.machineMod t ⟨[d₀, d₁], 0⟩ =
      .ok (.ofInt ((t.get d₀).tmod (t.get d₁))) := by
    rw [intDivision_eq h₀ h₁, if_neg hne, IntType.machineMod_eq hpos ha hb hne h]
    rfl
  have hq := IntType.get_ofInt_of_contains hpos hw (IntType.contains_tdiv ha hb hne h)
  have hr := IntType.get_ofInt_of_contains hpos hw (IntType.contains_tmod ha hb hne)
  refine ⟨?_, ?_, ?_, ?_, fun _ => .inl ⟨_, hdiv, hq⟩, fun _ _ => ⟨_, hmod⟩, ?_⟩
  · rw [hdiv]
    exact ⟨nofun, fun hzero => absurd hzero hne⟩
  · rw [hmod]
    exact ⟨nofun, fun hzero => absurd hzero hne⟩
  · rw [hdiv]
    exact fun _ => nofun
  · rw [hmod]
    exact fun _ => nofun
  · intro q r hq' hr'
    rw [hdiv] at hq'
    rw [hmod] at hr'
    cases hq'
    cases hr'
    rw [hq, hr, Int.mul_comm, Int.mul_tdiv_add_tmod]

/-- On the pair left out, a short type returns its smallest value and a long one is
undefined. -/
theorem not_divisionExact_of_overflows (hpos : 0 < t.width)
    (h₀ : d₀.isnull = false) (h₁ : d₁.isnull = false)
    (h : t.Overflows (t.get d₀) (t.get d₁)) {mod : FunctionInfo} :
    ¬DivisionExact t (intDivision IntType.machineDiv t) mod d₀ d₁ := by
  intro hexact
  have hne : t.get d₁ ≠ 0 := by
    rw [h.2.2]
    decide
  have hdiv : intDivision IntType.machineDiv t ⟨[d₀, d₁], 0⟩ = _ := intDivision_eq h₀ h₁
  rw [if_neg hne, IntType.machineDiv] at hdiv
  by_cases hw : 32 ≤ t.width
  · rw [if_pos ((IntType.promoted_overflows hpos (IntType.contains_get hpos d₀)).mpr ⟨hw, h⟩)]
      at hdiv
    exact hexact.div_defined _ hdiv
  · rw [if_neg fun hc =>
      hw ((IntType.promoted_overflows hpos (IntType.contains_get hpos d₀)).mp hc).1] at hdiv
    rcases hexact.quotient hne with ⟨q, -, hq⟩ | ⟨-, e, he⟩
    · exact IntType.not_contains_tdiv h (hq ▸ IntType.contains_get hpos q)
    · rw [hdiv] at he
      cases he

end

/-- For every integer type and two values of it: division is exact or an error
unless the type is signed and its smallest value is divided by minus one. -/
theorem divisionExact_iff {t : IntType} {div mod : FunctionInfo} (ht : (t, div, mod) ∈ divisions)
    {d₀ d₁ : Datum} (h₀ : d₀.isnull = false) (h₁ : d₁.isnull = false) :
    DivisionExact t div mod d₀ d₁ ↔ ¬t.Overflows (t.get d₀) (t.get d₁) := by
  have hfuns : 0 < t.width ∧ t.width ≤ 64 ∧ div = intDivision IntType.machineDiv t ∧
      mod = intDivision IntType.machineMod t := by
    simp only [divisions, List.mem_cons, Prod.mk.injEq, List.not_mem_nil, or_false] at ht
    rcases ht with ht | ht | ht | ht | ht | ht | ht | ht
    all_goals
      obtain ⟨rfl, rfl, rfl⟩ := ht
      exact ⟨by decide, by decide, rfl, rfl⟩
  obtain ⟨hpos, hw, rfl, rfl⟩ := hfuns
  constructor
  · intro hexact h
    exact not_divisionExact_of_overflows hpos h₀ h₁ h hexact
  · intro h
    by_cases hzero : t.get d₁ = 0
    · exact divisionExact_of_zero h₀ h₁ hzero
    · exact divisionExact_of_not_overflows hpos hw h₀ h₁ hzero h

theorem divisionExact_iff_sample :
    DivisionExact ⟨true, 16⟩ int2Div int2Mod (.ofInt (-7)) (.ofInt 2) :=
  (divisionExact_iff (by simp [divisions]) rfl rfl).mpr (by decide)

/-- The smallest `INT1` divided by minus one is the smallest `INT1`, and that of
`INT4` is undefined. -/
theorem division_overflows :
    int1Div ⟨[.ofInt (-128), .ofInt (-1)], 0⟩ = .ok (.ofInt (-128)) ∧
      int4Div ⟨[.ofInt (-2 ^ 31), .ofInt (-1)], 0⟩ = .error IntType.overflow ∧
      ¬DivisionExact ⟨true, 8⟩ int1Div int1Mod (.ofInt (-128)) (.ofInt (-1)) ∧
      ¬DivisionExact ⟨true, 32⟩ int4Div int4Mod (.ofInt (-2 ^ 31)) (.ofInt (-1)) :=
  ⟨by decide, by decide, not_divisionExact_of_overflows (by decide) rfl rfl (by decide),
    not_divisionExact_of_overflows (by decide) rfl rfl (by decide)⟩

end Taco
