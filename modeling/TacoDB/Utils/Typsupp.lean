import TacoDB.Base.Fmgr

/-!
# Type support functions

The built-in functions of `utils/typsupp` that the catalog calls: the input
functions of the types, the equality functions of the columns it searches by,
and the length function of `CHAR`. The number parsers and the printer of integers
are those of the library the source uses and are a parameter, as are the built-in
functions that are not listed here.
-/

namespace Taco

structure IntType where
  signed : Bool
  width : Nat

namespace IntType

def min (t : IntType) : Int := if t.signed then -2 ^ (t.width - 1) else 0

def max (t : IntType) : Int := if t.signed then 2 ^ (t.width - 1) - 1 else 2 ^ t.width - 1

end IntType

/-- `absl::SimpleAtoi`, `absl::SimpleAtob`, and what `absl::SNPrintF` prints of an integer. -/
structure Numbers where
  simpleAtoi : IntType → ByteString → Option Int
  simpleAtob : ByteString → Option Bool
  snPrintF : Int → ByteString

/-- The lower case of an ASCII letter, as in the C locale. -/
def toLower (b : Byte) : Byte := if 0x41 ≤ b ∧ b ≤ 0x5A then b + 0x20 else b

def isSpace (b : Byte) : Bool := b = 0x20 || (0x09 ≤ b && b ≤ 0x0D)

def stripSpaces (str : ByteString) : ByteString :=
  ((str.dropWhile isSpace).reverse.dropWhile isSpace).reverse

def digitsValue (str : ByteString) : Option Nat :=
  if str = [] then none
  else str.foldlM (fun x b =>
    if 0x30 ≤ b ∧ b ≤ 0x39 then some (10 * x + (b.toNat - 0x30)) else none) 0

def signedValue : ByteString → Option Int
  | 0x2D :: str => (digitsValue str).map fun x : Nat => -(x : Int)
  | 0x2B :: str => (digitsValue str).map fun x : Nat => (x : Int)
  | str => (digitsValue str).map fun x : Nat => (x : Int)

/-- The integer a string denotes: decimal digits behind an optional sign, with
white space around them. -/
def decimalInteger (str : ByteString) : Option Int := signedValue (stripSpaces str)

def digitsText (n : Nat) : ByteString :=
  (Nat.toDigits 10 n).map fun c => BitVec.ofNat 8 c.toNat

def decimalText (x : Int) : ByteString :=
  if x < 0 then 0x2D :: digitsText x.natAbs else digitsText x.natAbs

/-- The functions as the library documents them. A string is accepted as a value of every
type whose range has the integer it denotes. -/
def documentedNumbers : Numbers where
  simpleAtoi t str := (decimalInteger str).filter fun x => t.min ≤ x ∧ x ≤ t.max
  simpleAtob str :=
    let word := str.map toLower
    if word ∈ ["true", "t", "yes", "y", "1"].map ascii then some true
    else if word ∈ ["false", "f", "no", "n", "0"].map ascii then some false
    else none
  snPrintF := decimalText

/-- `SimpleAtoiWrapper`. The operands of the test for a signed type are promoted
to `int`, so a short type is parsed as an `int32_t` whether it is signed or
not. -/
def Numbers.simpleAtoiWrapper (num : Numbers) (t : IntType) (str : ByteString) : Option Int :=
  if t.width ≤ 16 then do
    let x ← num.simpleAtoi ⟨true, 32⟩ str
    if x < t.min then none
    else if x > t.max then none
    else some x
  else
    num.simpleAtoi t str

/-- `FMGR_ARG(i)`. -/
def FunctionCallInfo.arg (info : FunctionCallInfo) (i : Nat) : Except Failure Datum :=
  match info.args[i]? with
  | some d => .ok d
  | none => .error (.undefined "missing argument")

def messageText (str : ByteString) : String :=
  String.ofList (str.map fun b => Char.ofNat b.toNat)

/-- A function of one argument that returns NULL on NULL. -/
def strictUnary (f : Datum → Nat → Except Failure Datum) : FunctionInfo := fun info => do
  let d ← info.arg 0
  if d.isnull then return .null else f d info.typparam

def strictBinary (f : Datum → Datum → Bool) : FunctionInfo := fun info => do
  let d₀ ← info.arg 0
  let d₁ ← info.arg 1
  if d₀.isnull || d₁.isnull then return .null else return .ofBool (f d₀ d₁)

def intIn (num : Numbers) (t : IntType) (name : String) : FunctionInfo :=
  strictUnary fun d _ =>
    match num.simpleAtoiWrapper t d.getVarlenBytes with
    | none => .error (.tdbError .kError
        ("cannot parse \"" ++ messageText d.getVarlenBytes ++ "\" as a " ++ name))
    | some x => .ok (.ofInt x)

def int1In (num : Numbers) : FunctionInfo := intIn num ⟨true, 8⟩ "INT1"

def int2In (num : Numbers) : FunctionInfo := intIn num ⟨true, 16⟩ "INT2"

def int4In (num : Numbers) : FunctionInfo := intIn num ⟨true, 32⟩ "INT4"

def int8In (num : Numbers) : FunctionInfo := intIn num ⟨true, 64⟩ "INT8"

def uint1In (num : Numbers) : FunctionInfo := intIn num ⟨false, 8⟩ "UINT1"

def uint2In (num : Numbers) : FunctionInfo := intIn num ⟨false, 16⟩ "UINT2"

def uint4In (num : Numbers) : FunctionInfo := intIn num ⟨false, 32⟩ "UINT4"

def uint8In (num : Numbers) : FunctionInfo := intIn num ⟨false, 64⟩ "UINT8"

def oidIn (num : Numbers) : FunctionInfo := intIn num ⟨false, 32⟩ "OID"

def boolIn (num : Numbers) : FunctionInfo :=
  strictUnary fun d _ =>
    match num.simpleAtob d.getVarlenBytes with
    | none => .error (.tdbError .kError
        ("cannot parse \"" ++ messageText d.getVarlenBytes ++ "\" as a BOOL"))
    | some b => .ok (.ofBool b)

/-- The loop of `VARCHAR_in` and `CHAR_in`: the size of `str` without the trailing
spaces that make it longer than `maxSize`. -/
def trimmedSize (str : ByteString) (maxSize : Nat) : Nat → Nat
  | 0 => 0
  | size + 1 =>
      if size + 1 > maxSize ∧ str[size]? = some 0x20 then trimmedSize str maxSize size
      else size + 1

def tooLongMessage (size maxSize : Nat) : String :=
  "the length " ++ toString size ++ " of the given string exceeds specified maximum " ++
    toString maxSize

/-- A datum that owns its bytes; the size is converted to a `uint32_t`. -/
def Datum.ofBytes (bytes : ByteString) : Datum :=
  .varlen true (bytes.take (bytes.length % 2 ^ 32)) (length_take_mod_lt bytes)

def varcharIn : FunctionInfo :=
  strictUnary fun d maxSize =>
    let str := d.getVarlenBytes
    let size := trimmedSize str maxSize str.length
    if size > maxSize then .error (.tdbError .kError (tooLongMessage size maxSize))
    else .ok (.ofBytes (str.take size))

def charIn : FunctionInfo :=
  strictUnary fun d maxSize =>
    let str := d.getVarlenBytes
    let size := trimmedSize str maxSize str.length
    if size > maxSize then .error (.tdbError .kError (tooLongMessage size maxSize))
    else .ok (.ofBytes (str.take size ++ List.replicate (maxSize - size) 0x20))

def charTyplen : FunctionInfo := fun info => do
  let d ← info.arg 0
  if d.isnull then .error (.tdbError .kError "NULL type parameter")
  else
    let maxSize := d.getUInt 64
    if maxSize > 32767 then
      .error (.tdbError .kError
        ("CHAR does not support maximum length of " ++ toString maxSize))
    else
      .ok (.ofInt maxSize)

def oidEq : FunctionInfo := strictBinary fun x y => x.getUInt 32 = y.getUInt 32

def intEq (w : Nat) : FunctionInfo := strictBinary fun x y => x.getInt w = y.getInt w

def uintEq (w : Nat) : FunctionInfo := strictBinary fun x y => x.getUInt w = y.getUInt w

def varcharStringEq : FunctionInfo :=
  strictBinary fun x y => x.getVarlenBytes = y.getVarlenBytes

/-- Whether `strncasecmp` returns zero on two strings: it stops behind a pair of
NUL bytes. -/
def strncasecmpEq : ByteString → ByteString → Bool
  | x :: xs, y :: ys => toLower x = toLower y && (x = 0 || strncasecmpEq xs ys)
  | _, _ => true

def stringEqualCi (s₁ s₂ : ByteString) : Bool :=
  s₁.length = s₂.length && strncasecmpEq s₁ s₂

def varcharStringEqCi : FunctionInfo :=
  strictBinary fun x y => stringEqualCi x.getVarlenBytes y.getVarlenBytes

def builtinList (num : Numbers) : List (Nat × FunctionInfo) :=
  [(500, int1In num), (508, intEq 8), (530, int2In num), (538, intEq 16),
    (560, int4In num), (568, intEq 32), (590, int8In num), (598, intEq 64),
    (620, uint1In num), (628, uintEq 8), (650, uint2In num), (658, uintEq 16),
    (680, uint4In num), (688, uintEq 32), (710, uint8In num), (718, uintEq 64),
    (740, oidIn num), (742, oidEq), (770, boolIn num),
    (860, varcharIn), (872, varcharStringEq), (879, varcharStringEqCi),
    (890, charIn), (892, charTyplen)]

/-- `FindBuiltinFunction`; `others` are the built-in functions not listed
above. -/
def findBuiltinFunction (num : Numbers) (others : BuiltinTable) : BuiltinTable := fun oid =>
  match (builtinList num).lookup oid with
  | some f => some f
  | none => others oid

end Taco
