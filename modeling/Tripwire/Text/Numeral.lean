/-!
# Decimal numerals

A natural number is read from an optional `+` and ASCII digits, and has to stay within a limit.
Digits are taken from the left, so the first fault met is the one reported. Numbers are written
without a sign and without leading zeros.
-/
namespace Tripwire.Text.Numeral

inductive Fault where
  | empty
  | invalidDigit
  | tooLarge
  deriving DecidableEq, Repr

def Fault.message : Fault → String
  | .empty => "cannot parse integer from empty string"
  | .invalidDigit => "invalid digit found in string"
  | .tooLarge => "number too large to fit in target type"

def digit? (c : Char) : Option Nat :=
  if '0' ≤ c ∧ c ≤ '9' then some (c.toNat - '0'.toNat) else none

def takeDigits : List Char → List Nat × List Char
  | [] => ([], [])
  | c :: rest =>
      match digit? c with
      | some d => let (ds, rest) := takeDigits rest; (d :: ds, rest)
      | none => ([], c :: rest)

def ofDigits (digits : List Nat) : Nat := digits.foldl (fun n d => 10 * n + d) 0

def readDigits (limit : Nat) : Nat → List Char → Except Fault Nat
  | n, [] => .ok n
  | n, c :: rest =>
      match digit? c with
      | none => .error .invalidDigit
      | some d => if 10 * n + d ≤ limit then readDigits limit (10 * n + d) rest else .error .tooLarge

/-- Reads a numeral of at most `limit`. A lone sign has no digits and is refused as one. -/
def read (limit : Nat) : List Char → Except Fault Nat
  | [] => .error .empty
  | ['+'] => .error .invalidDigit
  | '+' :: digits => readDigits limit 0 digits
  | digits => readDigits limit 0 digits

def write (n : Nat) : List Char := Nat.toDigits 10 n

end Tripwire.Text.Numeral
