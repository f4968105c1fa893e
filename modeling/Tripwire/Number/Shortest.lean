import Tripwire.Number.Double
import Tripwire.Text.Numeral

/-!
# Shortest decimals

A double is written with the fewest decimal digits that read back to it, and of those with the
digits nearest to it. Notation is positional from `10^-5` up to `10^16` and scientific outside.
-/
namespace Tripwire.Double

structure Interval where
  value : Nat
  low : Nat
  high : Nat
  den : Nat
  closed : Bool

/-- The interval of a positive finite double. Below a power of two the next double is half as far. -/
def interval (significand : Nat) (exponent : Int) : Interval :=
  let scale := (exponent - 2).toNat
  let narrow := significand = Nat.pow 2 52 ∧ -1074 < exponent
  { value := 4 * significand * Nat.pow 2 scale
    low := (4 * significand - if narrow then 1 else 2) * Nat.pow 2 scale
    high := (4 * significand + 2) * Nat.pow 2 scale
    den := Nat.pow 2 (2 - exponent).toNat
    closed := significand % 2 = 0 }

def Interval.contains (i : Interval) (digits num den : Nat) : Bool :=
  let x := digits * num * i.den
  if i.closed then i.low * den ≤ x && x ≤ i.high * den else i.low * den < x && x < i.high * den

def log10Ratio (num den : Nat) : Int :=
  let guess : Int := (Text.Numeral.write num).length - (Text.Numeral.write den).length
  let reached :=
    if 0 ≤ guess then den * Nat.pow 10 guess.toNat ≤ num
    else den ≤ num * Nat.pow 10 (-guess).toNat
  if reached then guess else guess - 1

def onGrid? (i : Interval) (place : Int) : Option Nat :=
  let num := Nat.pow 10 place.toNat
  let den := Nat.pow 10 (-place).toNat
  let below := i.value * den / (i.den * num)
  match i.contains below num den, i.contains (below + 1) num den with
  | true, true =>
      let twice := 2 * i.value * den
      let middle := (2 * below + 1) * i.den * num
      some (if twice < middle then below
        else if middle < twice then below + 1
        else if below % 2 = 0 then below else below + 1)
  | true, false => some below
  | false, true => some (below + 1)
  | false, false => none

/-- Tries grids of ever more digits. Seventeen digits always read back. -/
def searchGrids (i : Interval) (top : Int) : Nat → Nat × Int
  | 0 => (i.value * Nat.pow 10 (16 - top).toNat / (i.den * Nat.pow 10 (top - 16).toNat), top - 16)
  | n + 1 =>
      let place := top - (16 - n : Nat)
      match onGrid? i place with
      | some digits => (digits, place)
      | none => searchGrids i top n

def shortest (significand : Nat) (exponent : Int) : Nat × Int :=
  let i := interval significand exponent
  searchGrids i (log10Ratio i.value i.den) 17

def stripZeros (digits : List Char) : List Char × Nat :=
  let kept := (digits.reverse.dropWhile (· == '0')).reverse
  (kept, digits.length - kept.length)

def signText (n : Int) : List Char :=
  (if n < 0 then '-' else '+') :: Text.Numeral.write n.natAbs

def place (digits : List Char) (weight : Int) : List Char :=
  if -5 ≤ weight ∧ weight < 16 then
    if weight < 0 then
      '0' :: '.' :: List.replicate (-weight - 1).toNat '0' ++ digits
    else
      let whole := weight.toNat + 1
      let padded := digits ++ List.replicate (whole - digits.length) '0'
      padded.take whole ++ '.' :: (if padded.length ≤ whole then ['0'] else padded.drop whole)
  else
    match digits with
    | [] => []
    | [d] => d :: 'e' :: signText weight
    | d :: rest => d :: '.' :: rest ++ 'e' :: signText weight

def write? : Double → Option (List Char)
  | .finite negative m e =>
      let body :=
        if m = 0 then ['0', '.', '0']
        else
          let (digits, power) := shortest m e
          let (kept, zeros) := stripZeros (Text.Numeral.write digits)
          place kept (power + zeros + kept.length - 1)
      some (if negative then '-' :: body else body)
  | _ => none

end Tripwire.Double
