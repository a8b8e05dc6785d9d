import Mathlib.Tactic.IntervalCases
import TacoDB.Data.TwosComplement
import TacoDB.Data.Alignment
import TacoDB.Control.Eff

/-!
# Basic definitions

The machine types, the failures and the alignment arithmetic of
`base/tdb_base.h`. `FieldOffset` and `FieldId` are `int16_t` in the source; here
they are integers, and every conversion to them is written out as
`toFieldOffset`. `Oid`, `FileId` and the type parameters are unsigned and are
natural numbers; a `FieldId` that is known to index the fields is one as well.

The model is that of the default (debug) build, in which a failed `ASSERT`
throws. A read or write outside the memory a pointer may access, or the use of
a null pointer, is the failure `undefined`: nothing is claimed about what the
program does from there on.
-/

namespace Taco

open TwosComplement Alignment

abbrev Byte := BitVec 8

/-- The content of a `std::string`, a string view or a byte buffer. -/
abbrev ByteString := List Byte

def ascii (s : String) : ByteString :=
  s.toList.map fun c => BitVec.ofNat 8 c.toNat

def invalidOid : Nat := 0

/-- `MaxOid`, one below the largest `uint32_t`. -/
def maxOid : Nat := 2 ^ 32 - 2

def invalidFid : Nat := 0

/-- The levels of `LOG` that throw. -/
inductive LogSeverity where
  | kError
  | kFatal
  deriving DecidableEq, Repr

inductive Failure where
  /-- A `TDBError` thrown by `LOG(kError, ...)` or `LOG(kFatal, ...)`. -/
  | tdbError (level : LogSeverity) (msg : String)
  /-- A failed `ASSERT`, which throws a fatal `TDBError`. -/
  | assertion (cond : String)
  /-- An exception thrown by the C++ library. -/
  | exception (what : String)
  /-- Undefined behaviour. -/
  | undefined (what : String)
  /-- A recursion that does not come back. -/
  | diverges
  deriving DecidableEq, Repr

/-- `ASSERT(cond)` in a build without `NDEBUG`. -/
def assert {σ : Type} (cond : Bool) (text : String) : Eff Failure σ Unit :=
  if cond then pure () else Eff.fail (.assertion text)

theorem assert_ok {σ : Type} {cond : Bool} {text : String} {st st' : σ}
    {u : Unit} (h : assert cond text st = (.ok u, st')) : cond = true ∧ st' = st := by
  unfold assert at h
  split at h
  · rename_i hcond
    exact ⟨hcond, (Eff.ok_inj h).2.symm⟩
  · cases h

def logError {σ α : Type} (msg : String) : Eff Failure σ α :=
  Eff.fail (.tdbError .kError msg)

def logFatal {σ α : Type} (msg : String) : Eff Failure σ α :=
  Eff.fail (.tdbError .kFatal msg)

/-- The conversion of an integer to `int16_t`. -/
def toFieldOffset (x : Int) : Int := narrow 16 x

theorem toFieldOffset_eq (x : Int) :
    toFieldOffset x = (x + 32768) % 65536 - 32768 := rfl

theorem toFieldOffset_of_mem {x : Int} (hlo : -32768 ≤ x) (hhi : x ≤ 32767) :
    toFieldOffset x = x := by
  rw [toFieldOffset_eq]
  omega

/-- The 64-bit word computed by `TYPEALIGN`. -/
def alignWord (alignVal len : BitVec 64) : BitVec 64 :=
  (len + (alignVal - 1)) &&& ~~~(alignVal - 1)

/-- `TYPEALIGN(ALIGNVAL, LEN)` for a `LEN` of type `FieldOffset`. -/
def typeAlign (alignVal len : Int) : Int :=
  toFieldOffset (alignWord (BitVec.ofInt 64 alignVal) (BitVec.ofInt 64 len)).toNat

def maxAlign (len : Int) : Int := typeAlign 8 len

/-- `MAXALIGN(LEN)` for a `LEN` of type `size_t`. -/
def maxAlignSize (len : Nat) : Nat :=
  (alignWord 8 (BitVec.ofNat 64 len)).toNat

/-- The alignments the `Type` catalog uses. -/
def IsAlignment (a : Int) : Prop := a = 1 ∨ a = 2 ∨ a = 4 ∨ a = 8

instance (a : Int) : Decidable (IsAlignment a) :=
  inferInstanceAs (Decidable (a = 1 ∨ a = 2 ∨ a = 4 ∨ a = 8))

theorem IsAlignment.pos {a : Int} (h : IsAlignment a) : 0 < a.toNat := by
  rcases h with rfl | rfl | rfl | rfl <;> decide

theorem IsAlignment.dvd {a m : Int} (h : IsAlignment a) (hm : 8 ∣ m) : (a.toNat : Int) ∣ m := by
  refine Int.dvd_trans ?_ hm
  rcases h with rfl | rfl | rfl | rfl <;> decide

/-- The masked word as a number: the sum wraps at 64 bits before the low bits
are cleared. -/
theorem alignWord_toNat {k : Nat} (hk : k < 4) (len : Int) :
    ∃ x : Nat, (x : Int) = (len + (2 ^ k - 1)) % 18446744073709551616 ∧
      (alignWord (BitVec.ofInt 64 (2 ^ k)) (BitVec.ofInt 64 len)).toNat =
        x / 2 ^ k * 2 ^ k := by
  have hone : BitVec.ofInt 64 (2 ^ k) - 1 = BitVec.ofNat 64 (2 ^ k - 1) := by
    interval_cases k <;> decide
  refine ⟨(BitVec.ofInt 64 len + BitVec.ofNat 64 (2 ^ k - 1)).toNat, ?_, ?_⟩
  · rw [BitVec.toNat_add, BitVec.toNat_ofInt, BitVec.toNat_ofNat]
    interval_cases k <;> norm_num <;> omega
  · rw [alignWord, hone, maskDown_toNat]

/-- Masking with an alignment is rounding up in exact arithmetic, followed by
the conversion to `int16_t`. -/
theorem typeAlign_eq {a : Int} (ha : IsAlignment a) (len : Int) :
    typeAlign a len = toFieldOffset (alignUp a.toNat len) := by
  rcases ha with rfl | rfl | rfl | rfl
  · obtain ⟨x, hx, h⟩ := alignWord_toNat (k := 0) (by decide) len
    rw [typeAlign, show (1 : Int) = 2 ^ 0 by rfl, h, show ((2 ^ 0 : Int)).toNat = 1 from rfl, alignUp_one]
    simp only [toFieldOffset_eq]
    omega
  · obtain ⟨x, hx, h⟩ := alignWord_toNat (k := 1) (by decide) len
    rw [typeAlign, show (2 : Int) = 2 ^ 1 by rfl, h, show ((2 ^ 1 : Int)).toNat = 2 from rfl]
    simp only [toFieldOffset_eq, alignUp]
    omega
  · obtain ⟨x, hx, h⟩ := alignWord_toNat (k := 2) (by decide) len
    rw [typeAlign, show (4 : Int) = 2 ^ 2 by rfl, h, show ((2 ^ 2 : Int)).toNat = 4 from rfl]
    simp only [toFieldOffset_eq, alignUp]
    omega
  · obtain ⟨x, hx, h⟩ := alignWord_toNat (k := 3) (by decide) len
    rw [typeAlign, show (8 : Int) = 2 ^ 3 by rfl, h, show ((2 ^ 3 : Int)).toNat = 8 from rfl]
    simp only [toFieldOffset_eq, alignUp]
    omega

/-- `AddWithCheck(left, right)` for a `left` of a signed type of width `w`:
`none` when it returns `false`, else the new value of `left`. The right operand
is converted to the type of the left one first. -/
def addWithCheck (w : Nat) (left right : Int) : Option Int :=
  let r := narrow w right
  if (left > 0 ∧ r > 2 ^ (w - 1) - 1 - left) ∨ (left < 0 ∧ r < left - -2 ^ (w - 1)) then
    none
  else
    some (narrow w (left + r))

end Taco
