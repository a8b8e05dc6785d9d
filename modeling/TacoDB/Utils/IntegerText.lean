import Mathlib.Data.Nat.Basic
import TacoDB.Utils.CharTypes
import TacoDB.Utils.MachineIntegers

/-!
# Integers as text

The input and output functions of the integer types. The output functions print
canonical decimals, and the input functions accept the decimals of the values of
their type. Between them a value passes through datums whose bits behind the width
of the type differ, which no function sees.
-/

namespace Taco

/-! ### Decimals -/

/-- The parsers of the 32- and 64-bit types accept the decimal integers of the
type. -/
def Numbers.ParsesDecimals (num : Numbers) : Prop :=
  ∀ t : IntType, t.width = 32 ∨ t.width = 64 → ∀ str,
    num.simpleAtoi t str = (decimalInteger str).filter fun x => t.Contains x

/-- Integers are printed as canonical decimals. -/
def Numbers.PrintsDecimals (num : Numbers) : Prop := ∀ x, num.snPrintF x = decimalText x

theorem documentedNumbers_parsesDecimals : documentedNumbers.ParsesDecimals := fun _ _ _ => rfl

theorem documentedNumbers_printsDecimals : documentedNumbers.PrintsDecimals := fun _ => rfl

def stringOutputBuflen : Nat := 22

/-- The output functions of the integer types. The length of the text is taken
before the buffer is moved from. -/
def intOut (num : Numbers) (t : IntType) : FunctionInfo :=
  strictUnary fun d _ => .ok (.ofBytes ((num.snPrintF (t.get d)).take (stringOutputBuflen - 1)))

def int1Out (num : Numbers) : FunctionInfo := intOut num ⟨true, 8⟩

def int2Out (num : Numbers) : FunctionInfo := intOut num ⟨true, 16⟩

def int4Out (num : Numbers) : FunctionInfo := intOut num ⟨true, 32⟩

def int8Out (num : Numbers) : FunctionInfo := intOut num ⟨true, 64⟩

def uint1Out (num : Numbers) : FunctionInfo := intOut num ⟨false, 8⟩

def uint2Out (num : Numbers) : FunctionInfo := intOut num ⟨false, 16⟩

def uint4Out (num : Numbers) : FunctionInfo := intOut num ⟨false, 32⟩

def uint8Out (num : Numbers) : FunctionInfo := intOut num ⟨false, 64⟩

def oidOut (num : Numbers) : FunctionInfo := intOut num ⟨false, 32⟩

def integerTexts (num : Numbers) : List (IntType × FunctionInfo × FunctionInfo) :=
  [(⟨true, 8⟩, int1In num, int1Out num), (⟨true, 16⟩, int2In num, int2Out num),
    (⟨true, 32⟩, int4In num, int4Out num), (⟨true, 64⟩, int8In num, int8Out num),
    (⟨false, 8⟩, uint1In num, uint1Out num), (⟨false, 16⟩, uint2In num, uint2Out num),
    (⟨false, 32⟩, uint4In num, uint4Out num), (⟨false, 64⟩, uint8In num, uint8Out num),
    (⟨false, 32⟩, oidIn num, oidOut num)]

/-! ### Printing and parsing -/

def digitByte (d : Nat) : Byte := BitVec.ofNat 8 (0x30 + d)

theorem digitsText_of_lt {n : Nat} (h : n < 10) : digitsText n = [digitByte n] := by
  unfold digitsText
  rw [Nat.toDigits_of_lt_base h]
  interval_cases n <;> rfl

theorem digitsText_of_le {n : Nat} (h : 10 ≤ n) :
    digitsText n = digitsText (n / 10) ++ [digitByte (n % 10)] := by
  have hlast := digitsText_of_lt (Nat.mod_lt n (by decide : 0 < 10))
  unfold digitsText at *
  rw [Nat.toDigits_of_lt_base (Nat.mod_lt n (by decide : 0 < 10))] at hlast
  rw [Nat.toDigits_of_base_le (by decide) h, List.map_append, hlast]

theorem digit_step {d : Nat} (h : d < 10) (x : Nat) :
    (if (0x30 : Byte) ≤ digitByte d ∧ digitByte d ≤ 0x39 then
      some (10 * x + ((digitByte d).toNat - 0x30)) else none) = some (10 * x + d) := by
  interval_cases d <;> rfl

theorem digitsText_ne_nil (n : Nat) : digitsText n ≠ [] := by
  unfold digitsText
  rw [Ne, List.map_eq_nil_iff]
  exact Nat.toDigits_ne_nil

theorem digitsValue_digitsText (n : Nat) : digitsValue (digitsText n) = some n := by
  unfold digitsValue
  rw [if_neg (digitsText_ne_nil n)]
  induction n using Nat.strongRecOn with
  | ind n ih =>
      by_cases h : n < 10
      · rw [digitsText_of_lt h, List.foldlM_cons, digit_step h]
        simp
      · have hlt : n % 10 < 10 := Nat.mod_lt n (by decide)
        rw [digitsText_of_le (by omega), List.foldlM_append, ih (n / 10) (by omega)]
        rw [Option.bind_eq_bind, Option.bind_some, List.foldlM_cons, digit_step hlt,
          Nat.div_add_mod]
        rfl

theorem mem_digitsText {n : Nat} {b : Byte} (h : b ∈ digitsText n) : 0x30 ≤ b ∧ b ≤ 0x39 := by
  have hdigit : ∀ d < 10, (0x30 : Byte) ≤ digitByte d ∧ digitByte d ≤ 0x39 := by decide
  induction n using Nat.strongRecOn with
  | ind n ih =>
      by_cases hn : n < 10
      · rw [digitsText_of_lt hn, List.mem_singleton] at h
        rw [h]
        exact hdigit n hn
      · rw [digitsText_of_le (by omega), List.mem_append, List.mem_singleton] at h
        rcases h with h | h
        · exact ih (n / 10) (by omega) h
        · rw [h]
          exact hdigit _ (Nat.mod_lt n (by decide))

theorem not_isSpace_of_digit {b : Byte} (h : 0x30 ≤ b ∧ b ≤ 0x39) : isSpace b = false := by
  revert b
  decide

/-- A string without white space is not stripped of anything. -/
theorem stripSpaces_eq {str : ByteString} (h : ∀ b ∈ str, isSpace b = false) :
    stripSpaces str = str := by
  have hdrop : ∀ l : ByteString, (∀ b ∈ l, isSpace b = false) → l.dropWhile isSpace = l := by
    intro l hl
    cases l with
    | nil => rfl
    | cons b bs => rw [List.dropWhile_cons, hl b List.mem_cons_self, if_neg Bool.false_ne_true]
  unfold stripSpaces
  rw [hdrop str h, hdrop str.reverse fun b hb => h b (List.mem_reverse.mp hb), List.reverse_reverse]

theorem stripSpaces_decimalText (x : Int) : stripSpaces (decimalText x) = decimalText x := by
  apply stripSpaces_eq
  intro b hb
  unfold decimalText at hb
  split at hb
  · rcases List.mem_cons.mp hb with rfl | hb
    · rfl
    · exact not_isSpace_of_digit (mem_digitsText hb)
  · exact not_isSpace_of_digit (mem_digitsText hb)

/-- Without a sign in front the value is that of the digits. -/
theorem signedValue_digitsText (n : Nat) :
    signedValue (digitsText n) = some (n : Int) := by
  have hvalue := digitsValue_digitsText n
  have hdigits : ∀ b ∈ digitsText n, 0x30 ≤ b ∧ b ≤ 0x39 := fun b hb => mem_digitsText hb
  revert hvalue hdigits
  generalize digitsText n = str
  intro hvalue hdigits
  unfold signedValue
  split
  · exact absurd (hdigits _ List.mem_cons_self) (by decide)
  · exact absurd (hdigits _ List.mem_cons_self) (by decide)
  · rw [hvalue]
    rfl

theorem signedValue_minus (str : ByteString) :
    signedValue (0x2D :: str) = (digitsValue str).map fun n : Nat => -(n : Int) :=
  rfl

theorem decimalInteger_decimalText (x : Int) : decimalInteger (decimalText x) = some x := by
  unfold decimalInteger
  rw [stripSpaces_decimalText]
  unfold decimalText
  split
  · rename_i h
    rw [signedValue_minus, digitsValue_digitsText, Option.map_some]
    congr 1
    omega
  · rename_i h
    rw [signedValue_digitsText]
    congr 1
    omega

/-- A 64-bit integer has at most twenty digits, so the buffer holds it. -/
theorem length_decimalText {x : Int} (hlo : -10 ^ 20 < x) (hhi : x < 10 ^ 20) :
    (decimalText x).length ≤ 21 := by
  have hdigits : (digitsText x.natAbs).length ≤ 20 := by
    unfold digitsText
    rw [List.length_map]
    exact (Nat.length_toDigits_le_iff (by decide) (by decide)).mpr (by omega)
  unfold decimalText
  split
  · rw [List.length_cons]
    omega
  · omega

/-! ### The functions -/

variable {num : Numbers} {t : IntType}

theorem IntType.Contains.bounds (hw : t.width ≤ 64) {x : Int} (h : t.Contains x) :
    -10 ^ 20 < x ∧ x < 10 ^ 20 := by
  cases ht : t.signed with
  | true =>
      have hpow : (2 : Int) ^ (t.width - 1) ≤ 2 ^ 63 := pow_le_pow_right₀ (by decide) (by omega)
      rw [contains_signed ht] at h
      omega
  | false =>
      have hpow : (2 : Int) ^ t.width ≤ 2 ^ 64 := pow_le_pow_right₀ (by decide) hw
      rw [contains_unsigned ht] at h
      omega

theorem IntType.Contains.int32 (hw : t.width ≤ 16) {x : Int} (h : t.Contains x) :
    IntType.Contains ⟨true, 32⟩ x := by
  rw [contains_signed rfl]
  change -2 ^ 31 ≤ x ∧ x < 2 ^ 31
  cases ht : t.signed with
  | true =>
      have hpow : (2 : Int) ^ (t.width - 1) ≤ 2 ^ 15 := pow_le_pow_right₀ (by decide) (by omega)
      rw [contains_signed ht] at h
      omega
  | false =>
      have hpow : (2 : Int) ^ t.width ≤ 2 ^ 16 := pow_le_pow_right₀ (by decide) hw
      rw [contains_unsigned ht] at h
      omega

/-- Every width is parsed as its own range has it, the short ones included. -/
theorem simpleAtoiWrapper_eq (hnum : num.ParsesDecimals)
    (hw : t.width ≤ 16 ∨ t.width = 32 ∨ t.width = 64) (str : ByteString) :
    num.simpleAtoiWrapper t str = (decimalInteger str).filter fun x => t.Contains x := by
  unfold Numbers.simpleAtoiWrapper
  by_cases hshort : t.width ≤ 16
  · rw [if_pos hshort, hnum ⟨true, 32⟩ (.inl rfl)]
    cases hx : decimalInteger str with
    | none => rfl
    | some x =>
        rw [Option.filter_some, Option.filter_some]
        by_cases hc : t.Contains x
        · rw [if_pos (decide_eq_true hc), if_pos (decide_eq_true (hc.int32 hshort))]
          change (if x < t.min then none else if x > t.max then none else some x) = _
          rw [if_neg (not_lt.mpr hc.1), if_neg (not_lt.mpr hc.2)]
        · rw [if_neg fun h => hc (of_decide_eq_true h)]
          split
          · change (if x < t.min then none else if x > t.max then none else some x) = _
            split_ifs with h₁ h₂
            · rfl
            · rfl
            · exact absurd ⟨not_lt.mp h₁, not_lt.mp h₂⟩ hc
          · rfl
  · rw [if_neg hshort, hnum t (by omega)]

/-- An input function accepts the decimals of the values of its type, and returns
the value. -/
theorem intIn_eq (hnum : num.ParsesDecimals) (hw : t.width ≤ 16 ∨ t.width = 32 ∨ t.width = 64)
    (name : String) {d : Datum} (hd : d.isnull = false) (n : Nat) :
    intIn num t name ⟨[d], n⟩ =
      match (decimalInteger d.getVarlenBytes).filter fun x => t.Contains x with
      | none => .error (.tdbError .kError
          ("cannot parse \"" ++ messageText d.getVarlenBytes ++ "\" as a " ++ name))
      | some x => .ok (.ofInt x) := by
  have hparse := simpleAtoiWrapper_eq hnum hw d.getVarlenBytes
  refine (strictUnary_of_notNull hd n).trans ?_
  generalize num.simpleAtoiWrapper t d.getVarlenBytes = parsed at hparse ⊢
  subst hparse
  rfl

theorem intIn_ok_iff (hnum : num.ParsesDecimals)
    (hw : t.width ≤ 16 ∨ t.width = 32 ∨ t.width = 64) (name : String) {d : Datum}
    (hd : d.isnull = false) (n : Nat) {v : Datum} :
    intIn num t name ⟨[d], n⟩ = .ok v ↔
      ∃ x, decimalInteger d.getVarlenBytes = some x ∧ t.Contains x ∧ v = .ofInt x := by
  rw [intIn_eq hnum hw name hd n]
  cases hx : decimalInteger d.getVarlenBytes with
  | none =>
      constructor
      · rintro ⟨⟩
      · rintro ⟨x, ⟨⟩, -⟩
  | some x =>
      by_cases hc : t.Contains x
      · rw [Option.filter_some, if_pos (decide_eq_true hc)]
        constructor
        · rintro ⟨⟩
          exact ⟨x, rfl, hc, rfl⟩
        · rintro ⟨y, hy, -, rfl⟩
          cases hy
          rfl
      · rw [Option.filter_some, if_neg fun h => hc (of_decide_eq_true h)]
        constructor
        · rintro ⟨⟩
        · rintro ⟨y, hy, hcy, -⟩
          cases hy
          exact absurd hcy hc

theorem intOut_eq (hprint : num.PrintsDecimals) (hpos : 0 < t.width) (hw : t.width ≤ 64)
    {d : Datum} (hd : d.isnull = false) (n : Nat) :
    intOut num t ⟨[d], n⟩ = .ok (.ofBytes (decimalText (t.get d))) := by
  have hbounds := (IntType.contains_get hpos d).bounds hw
  have hlen : (decimalText (t.get d)).length ≤ stringOutputBuflen - 1 :=
    length_decimalText hbounds.1 hbounds.2
  unfold intOut
  rw [strictUnary_of_notNull hd, hprint, List.take_of_length_le hlen]

theorem intIn_intOut (hnum : num.ParsesDecimals) (hprint : num.PrintsDecimals)
    (hw : t.width ≤ 16 ∨ t.width = 32 ∨ t.width = 64) (hpos : 0 < t.width) (name : String)
    {d : Datum} (hd : d.isnull = false) :
    ∃ text, intOut num t ⟨[d], 0⟩ = .ok text ∧ text.isnull = false ∧
      intIn num t name ⟨[text], 0⟩ = .ok (.ofInt (t.get d)) := by
  have hwidth : t.width ≤ 64 := by omega
  have hc := IntType.contains_get hpos d
  have hbounds := hc.bounds hwidth
  have hlen := length_decimalText hbounds.1 hbounds.2
  refine ⟨_, intOut_eq hprint hpos hwidth hd 0, rfl, ?_⟩
  rw [intIn_eq hnum hw name rfl, getVarlenBytes_ofBytes (by omega), decimalInteger_decimalText,
    Option.filter_some, if_pos (decide_eq_true hc)]

end Taco
