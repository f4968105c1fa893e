import Tripwire.Contract.ParamType
import Tripwire.Text.Quoted

/-!
# Faults of contract calls

Why no function of an interface takes a call, and why an argument does not fit its type.
-/
namespace Tripwire.Contract

inductive AbiFault where
  | notList
  | undeclared
  | noOverload (arity : Nat)
  | unsupported (type : String)
  deriving DecidableEq, Repr

def AbiFault.message : AbiFault → String
  | .notList => "ABI must be a JSON array"
  | .undeclared => "function not declared"
  | .noOverload arity => "no overload takes " ++ toString arity ++ " arguments"
  | .unsupported type => "unsupported parameter type `" ++ type ++ "`"

inductive ArgumentFault where
  | notString
  | notHexString
  | hex (fault : Text.Hex.Fault)
  | byteCount (expected actual : Nat)
  | notBoolean
  | negative
  | tooWide (bits : Nat)
  | notInteger
  | notIntegerString
  | noDigits
  | invalidDigit (c : Char)
  | beyondWord
  | dynamicType
  deriving DecidableEq, Repr

def ArgumentFault.message : ArgumentFault → String
  | .notString => "expected a string"
  | .notHexString => "expected a hex string"
  | .hex fault => fault.message
  | .byteCount expected actual =>
      "expected " ++ toString expected ++ " bytes, got " ++ toString actual
  | .notBoolean => "expected a boolean"
  | .negative => "negative value for unsigned type"
  | .tooWide bits => "value does not fit in " ++ toString bits ++ " bits"
  | .notInteger => "expected an integer"
  | .notIntegerString => "expected an integer or integer string"
  | .noDigits => "empty integer"
  | .invalidDigit c => "invalid digit `" ++ String.singleton c ++ "`"
  | .beyondWord => "integer exceeds 256 bits"
  | .dynamicType => "dynamic type in static position"

end Tripwire.Contract
