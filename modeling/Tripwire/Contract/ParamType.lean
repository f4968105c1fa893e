import Tripwire.Text.Numeral

/-!
# Parameter types

The elementary types of the contract ABI. Arrays and tuples are not among them.
-/
namespace Tripwire.Contract

inductive ParamType where
  | address
  | bool
  | uint (bits : Nat)
  | int (bits : Nat)
  | fixedBytes (size : Nat)
  | bytes
  | string
  deriving DecidableEq, Repr

namespace ParamType

def widthLimit : Nat := Nat.pow 2 64 - 1

def readBits? (digits : List Char) : Option Nat :=
  match Text.Numeral.read widthLimit digits with
  | .ok bits => if bits % 8 = 0 ∧ 8 ≤ bits ∧ bits ≤ 256 then some bits else none
  | .error _ => none

def readSize? (digits : List Char) : Option Nat :=
  match Text.Numeral.read widthLimit digits with
  | .ok size => if 1 ≤ size ∧ size ≤ 32 then some size else none
  | .error _ => none

/-- Reads the name of a type. An integer without a width has 256 bits. -/
def readChars? : List Char → Option ParamType
  | ['a', 'd', 'd', 'r', 'e', 's', 's'] => some .address
  | ['b', 'o', 'o', 'l'] => some .bool
  | ['s', 't', 'r', 'i', 'n', 'g'] => some .string
  | ['b', 'y', 't', 'e', 's'] => some .bytes
  | ['u', 'i', 'n', 't'] => some (.uint 256)
  | ['i', 'n', 't'] => some (.int 256)
  | 'u' :: 'i' :: 'n' :: 't' :: bits => (readBits? bits).map .uint
  | 'i' :: 'n' :: 't' :: bits => (readBits? bits).map .int
  | 'b' :: 'y' :: 't' :: 'e' :: 's' :: size => (readSize? size).map .fixedBytes
  | _ => none

def read? (name : String) : Option ParamType := readChars? name.toList

def canonicalChars : ParamType → List Char
  | .address => ['a', 'd', 'd', 'r', 'e', 's', 's']
  | .bool => ['b', 'o', 'o', 'l']
  | .uint bits => 'u' :: 'i' :: 'n' :: 't' :: Text.Numeral.write bits
  | .int bits => 'i' :: 'n' :: 't' :: Text.Numeral.write bits
  | .fixedBytes size => 'b' :: 'y' :: 't' :: 'e' :: 's' :: Text.Numeral.write size
  | .bytes => ['b', 'y', 't', 'e', 's']
  | .string => ['s', 't', 'r', 'i', 'n', 'g']

def canonical (t : ParamType) : String := String.ofList t.canonicalChars

def isDynamic : ParamType → Bool
  | .bytes | .string => true
  | _ => false

end ParamType
end Tripwire.Contract
