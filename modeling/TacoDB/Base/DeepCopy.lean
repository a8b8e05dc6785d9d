import TacoDB.Base.Datum

/-!
# Copies of a datum

`HasExternalRef` is documented to be true on a datum that refers to bytes it does
not own, and tests for one that owns them. `DeepCopy` copies exactly the byte
arrays this test accepts, so it copies what needs no copy and returns what does.
-/

namespace Taco

namespace Datum

def isvarlen : Datum → Bool
  | varlen _ _ _ => true
  | _ => false

def isowned : Datum → Bool
  | varlen owned _ _ => owned
  | _ => false

def hasExternalRef (d : Datum) : Bool := d.isvarlen && d.isowned

/-- `DeepCopy`. The copy is made with `unique_aligned_alloc(8, size)`, which is taken to
succeed. -/
def deepCopy (d : Datum) : Datum :=
  if d.hasExternalRef then varlen true d.getVarlenBytes d.getVarlenSize_lt else d

def Refers (d : Datum) : Prop := d.isvarlen = true ∧ d.isowned = false

def SameValue (d d' : Datum) : Prop :=
  d.isnull = d'.isnull ∧ d.isvarlen = d'.isvarlen ∧ d.val = d'.val ∧
    d.getVarlenSize = d'.getVarlenSize ∧ d.getVarlenBytes = d'.getVarlenBytes

/-- The copy stands on its own, as far as `HasExternalRef` tells, and this tells
what it is documented to. -/
structure SelfContained (d : Datum) : Prop where
  isnull_iff : d.deepCopy.isnull = true ↔ d.isnull = true
  sameValue : SameValue d.deepCopy d
  noExternalRef : d.deepCopy.hasExternalRef = false
  externalRef_iff : d.hasExternalRef = true ↔ d.Refers

/-- The copy of a byte array is owned exactly when the array was. -/
theorem deepCopy_varlen (owned : Bool) (bytes : ByteString) (h : bytes.length < 2 ^ 32) :
    deepCopy (varlen owned bytes h) = varlen owned bytes h := by
  cases owned <;> rfl

theorem deepCopy_eq (d : Datum) : d.deepCopy = d := by
  cases d with
  | null => rfl
  | fixed v => rfl
  | varlen owned bytes h => exact deepCopy_varlen owned bytes h

theorem sameValue_deepCopy (d : Datum) : SameValue d.deepCopy d := by
  rw [deepCopy_eq]
  exact ⟨rfl, rfl, rfl, rfl, rfl⟩

/-- `DeepCopy` and `HasExternalRef` do what they document on the data that are
not byte arrays, and on no byte array. -/
theorem deepCopy_selfContained_iff (d : Datum) : SelfContained d ↔ d.isvarlen = false := by
  constructor
  · intro h
    cases d with
    | null => rfl
    | fixed v => rfl
    | varlen owned bytes hsize =>
        have hrefers := h.externalRef_iff
        cases owned with
        | true => exact absurd (hrefers.mp rfl).2 nofun
        | false => exact absurd (hrefers.mpr ⟨rfl, rfl⟩) nofun
  · intro h
    refine ⟨by rw [deepCopy_eq], sameValue_deepCopy d, ?_, ?_⟩
    · rw [deepCopy_eq, hasExternalRef, h, Bool.false_and]
    · rw [hasExternalRef, Refers, h, Bool.false_and]
      exact ⟨nofun, fun hr => absurd hr.1 nofun⟩

/-- An owned byte array is reported as a reference after the copy as well, and a
reference is returned as it is. -/
theorem deepCopy_not_selfContained :
    (varlen true (ascii "ab") (by decide)).deepCopy.hasExternalRef = true ∧
      (varlen false (ascii "ab") (by decide)).deepCopy.Refers ∧
      (varlen false (ascii "ab") (by decide)).hasExternalRef = false ∧
      ¬SelfContained (varlen false (ascii "ab") (by decide)) :=
  ⟨rfl, ⟨rfl, rfl⟩, rfl, fun h => absurd (h.externalRef_iff.mpr ⟨rfl, rfl⟩) nofun⟩

end Datum

end Taco
