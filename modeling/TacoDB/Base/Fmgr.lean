import TacoDB.Base.Datum

/-!
# The function manager

The calling convention of `base/fmgr.h`: a built-in function receives its
arguments and the type parameter of its result and returns a datum or throws.
The built-in functions are found by their object identifier.
-/

namespace Taco

structure FunctionCallInfo where
  args : List Datum
  typparam : Nat

abbrev FunctionInfo := FunctionCallInfo → Except Failure Datum

/-- `FindBuiltinFunction`: `none` is the empty `FunctionInfo` it returns for an
unknown identifier. -/
abbrev BuiltinTable := Nat → Option FunctionInfo

/-- `FunctionCall` and `FunctionCallWithTypparam` on what `FindBuiltinFunction`
returned; calling an empty `FunctionInfo` throws. -/
def functionCall (f : Option FunctionInfo) (args : List Datum) (typparam : Nat := 0) :
    Except Failure Datum :=
  match f with
  | none => .error (.exception "std::bad_function_call")
  | some f => f { args, typparam }

end Taco
