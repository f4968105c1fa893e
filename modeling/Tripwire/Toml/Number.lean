import Tripwire.Number.Double
import Tripwire.Text.Hex
import Tripwire.Text.Numeral
import Tripwire.Toml.Line
import Tripwire.Value.Basic

/-!
# Numbers in TOML

An integer has 64 bits with a sign. Without a sign it may also be given in hexadecimal, octal or binary
digits. A number with a fraction or an exponent is the nearest double, and must not be beyond all of
them above zero. Single underscores may stand between digits.
-/
namespace Tripwire.Toml

def moreDigits (digit? : Char → Option Nat) : List Char → List Nat × List Char
  | '_' :: c :: rest =>
      match digit? c with
      | some d => let (ds, rest) := moreDigits digit? rest; (d :: ds, rest)
      | none => ([], '_' :: c :: rest)
  | c :: rest =>
      match digit? c with
      | some d => let (ds, rest) := moreDigits digit? rest; (d :: ds, rest)
      | none => ([], c :: rest)
  | [] => ([], [])

def readDigits (digit? : Char → Option Nat) : Reader (List Nat)
  | c :: rest => (digit? c).map fun d => let (ds, rest) := moreDigits digit? rest; (d :: ds, rest)
  | [] => none

def decimal? : Char → Option Nat := Text.Numeral.digit?

def digitBelow? (base : Nat) (c : Char) : Option Nat := (decimal? c).filter (· < base)

def readSign : List Char → Option Bool × List Char
  | '+' :: rest => (some false, rest)
  | '-' :: rest => (some true, rest)
  | text => (none, text)

def signed (negative : Bool) (n : Nat) : Int := if negative then -(n : Int) else n

def integerLimit : Nat := Nat.pow 2 63 - 1

def integer? (negative : Bool) (n : Nat) : Option Value :=
  if n ≤ (if negative then integerLimit + 1 else integerLimit) then some (.int (signed negative n))
  else none

def readInBase (base : Nat) (digit? : Char → Option Nat) : Reader Value := fun text => do
  let (digits, rest) ← readDigits digit? text
  let value ← integer? false (digits.foldl (fun n d => base * n + d) 0)
  pure (value, rest)

def readFraction : Reader (Option (List Nat))
  | '.' :: rest => (readDigits decimal? rest).map fun (digits, rest) => (some digits, rest)
  | text => some (none, text)

def readExponent : Reader (Option Int)
  | 'e' :: rest | 'E' :: rest => do
      let (sign?, rest) := readSign rest
      let (digits, rest) ← readDigits decimal? rest
      pure (some (signed (sign?.getD false) (Text.Numeral.ofDigits digits)), rest)
  | text => some (none, text)

def finite? (x : Double) : Option Value :=
  if x = .infinite false then none else some (.float x)

def readDecimal (negative : Bool) (text : List Char) : Option (Value × List Char) := do
  let (whole, rest) ← readDigits decimal? text
  if 1 < whole.length && whole.head? = some 0 then none
  let (fraction?, rest) ← readFraction rest
  let (exponent?, rest) ← readExponent rest
  let value ←
    if fraction?.isNone && exponent?.isNone then integer? negative (Text.Numeral.ofDigits whole)
    else
      let fraction := fraction?.getD []
      finite? (Double.ofDecimal negative (Text.Numeral.ofDigits (whole ++ fraction))
        (exponent?.getD 0 - fraction.length))
  pure (value, rest)

def readNumber (text : List Char) : Option (Value × List Char) :=
  match readSign text with
  | (none, '0' :: 'x' :: rest) => readInBase 16 Text.Hex.digit? rest
  | (none, '0' :: 'o' :: rest) => readInBase 8 (digitBelow? 8) rest
  | (none, '0' :: 'b' :: rest) => readInBase 2 (digitBelow? 2) rest
  | (sign?, 'i' :: 'n' :: 'f' :: rest) => some (.float (.infinite (sign?.getD false)), rest)
  | (_, 'n' :: 'a' :: 'n' :: rest) => some (.float .nan, rest)
  | (sign?, rest) => readDecimal (sign?.getD false) rest

end Tripwire.Toml
