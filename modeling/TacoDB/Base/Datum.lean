import TacoDB.Data.LittleEndian
import TacoDB.Data.Slice
import TacoDB.Base.Core

/-!
# Datums

The runtime values of `base/datum.h`. A datum is NULL, a by-value word, or a
byte array that the datum owns or only refers to. `DatumRef` and
`NullableDatumRef` give access to the same values and are not kept apart here.

The getters do not check which kind of datum they are called on, and neither
do their callers. What a getter returns on a datum of the wrong kind, and what
lies behind the last byte of a byte array, is not specified by the source; the
model has zeros there and no result depends on it.
-/

namespace Taco

open LittleEndian Buffer TwosComplement

/-- A `Datum`. The size of a byte array is a `uint32_t`. -/
inductive Datum where
  | null
  | fixed (val : BitVec 64)
  | varlen (owned : Bool) (bytes : ByteString) (hsize : bytes.length < 2 ^ 32)
  deriving DecidableEq

namespace Datum

def isnull : Datum → Bool
  | null => true
  | _ => false

def val : Datum → BitVec 64
  | fixed v => v
  | _ => 0

/-- `GetFixedlenBytes`: the bytes of the word, least significant first. -/
def getFixedlenBytes (d : Datum) : ByteString := leBytes 8 d.val.toNat

def getVarlenBytes : Datum → ByteString
  | varlen _ bytes _ => bytes
  | _ => []

def getVarlenSize (d : Datum) : Nat := d.getVarlenBytes.length

def getBool (d : Datum) : Bool := d.val ≠ 0

/-- `GetUInt8`, `GetUInt16`, `GetUInt32` (`GetOid`) and `GetUInt64`, by width. -/
def getUInt (w : Nat) (d : Datum) : Nat := d.val.toNat % 2 ^ w

def getInt (w : Nat) (d : Datum) : Int := narrow w d.val.toNat

def ofInt (x : Int) : Datum := fixed (BitVec.ofInt 64 x)

def ofBool (x : Bool) : Datum := ofInt (if x then 1 else 0)

theorem length_take_mod_lt (bytes : ByteString) :
    (bytes.take (bytes.length % 2 ^ 32)).length < 2 ^ 32 := by
  rw [List.length_take]
  exact lt_of_le_of_lt (Nat.min_le_left _ _) (Nat.mod_lt _ (by decide))

/-- `FromVarlenBytes` on bytes the datum does not own; the size passed to it is
converted to a `uint32_t`. -/
def fromVarlenBytes (bytes : ByteString) : Datum :=
  varlen false (bytes.take (bytes.length % 2 ^ 32)) (length_take_mod_lt bytes)

def load (mem : ByteString) (off : Int) (n : Nat) : Except Failure ByteString :=
  if 0 ≤ off ∧ off + n ≤ mem.length then
    .ok (slice mem off.toNat n)
  else
    .error (.undefined "read out of bounds")

def fromFixedlenBytes (mem : ByteString) (off size : Int) : Except Failure Datum :=
  if size = 1 ∨ size = 2 ∨ size = 4 ∨ size = 8 then do
    let bytes ← load mem off size.toNat
    return fixed (BitVec.ofNat 64 (leNat bytes))
  else
    .error (.tdbError .kError "unexpected pass-by-value data length")

@[simp] theorem length_getFixedlenBytes (d : Datum) :
    d.getFixedlenBytes.length = 8 :=
  length_leBytes 8 _

theorem getVarlenSize_lt (d : Datum) : d.getVarlenSize < 2 ^ 32 := by
  cases d with
  | null => decide
  | fixed v => simp [getVarlenSize, getVarlenBytes]
  | varlen o bytes hsize => exact hsize

theorem getVarlenBytes_fromVarlenBytes {bytes : ByteString}
    (h : bytes.length < 2 ^ 32) : (fromVarlenBytes bytes).getVarlenBytes = bytes := by
  change bytes.take (bytes.length % 2 ^ 32) = bytes
  rw [Nat.mod_eq_of_lt h, List.take_length]

theorem load_of_le {mem : ByteString} {off n : Nat} (h : off + n ≤ mem.length) :
    load mem off n = .ok (slice mem off n) := by
  unfold load
  rw [if_pos (by omega), Int.toNat_natCast]

end Datum

/-- The bytes `copy_bytes(passbyref, len, src, tgt)` stores at `tgt`. A negative
length is a huge one for `memcpy`. -/
def copyBytes (passbyref : Bool) (len : Int) (src : ByteString) :
    Except Failure ByteString :=
  if passbyref then
    if len < 0 then .error (.undefined "memcpy of a negative length")
    else .ok (resize src len.toNat 0)
  else if len = 1 then .ok (resize src 1 0)
  else if len = 2 then .ok (resize src 2 0)
  else if len = 4 then .ok (resize src 4 0)
  else .ok (resize src 8 0)

end Taco
