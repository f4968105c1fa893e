import Tripwire.Text.Numeral

/-!
# Doubles

Numbers with a 53-bit significand, rounded to the nearest with ties to the even neighbour. A finite
double is held as its sign, significand and binary exponent in lowest form: the exponent is -1074,
or the significand has all its 53 bits.
-/
namespace Tripwire

inductive Double where
  | finite (negative : Bool) (significand : Nat) (exponent : Int)
  | infinite (negative : Bool)
  | nan
  deriving DecidableEq, Repr

namespace Double

def zero (negative : Bool) : Double := .finite negative 0 (-1074)

def roundDiv (num den : Nat) : Nat :=
  let q := num / den
  let r := num % den
  if 2 * r < den then q
  else if den < 2 * r then q + 1
  else if q % 2 = 0 then q else q + 1

def log2Ratio (num den : Nat) : Int :=
  let guess : Int := num.log2 - den.log2
  let reached :=
    if 0 ≤ guess then den * Nat.pow 2 guess.toNat ≤ num
    else den ≤ num * Nat.pow 2 (-guess).toNat
  if reached then guess else guess - 1

def ofRatio (negative : Bool) (num den : Nat) : Double :=
  if num = 0 ∨ den = 0 then zero negative
  else
    let exponent := max (log2Ratio num den - 52) (-1074)
    let significand :=
      if 0 ≤ exponent then roundDiv num (den * Nat.pow 2 exponent.toNat)
      else roundDiv (num * Nat.pow 2 (-exponent).toNat) den
    let (significand, exponent) :=
      if significand = Nat.pow 2 53 then (Nat.pow 2 52, exponent + 1) else (significand, exponent)
    if 971 < exponent then .infinite negative else .finite negative significand exponent

def ofInt (n : Int) : Double := ofRatio (n < 0) n.natAbs 1

/-- The double nearest to `±significand · 10^exponent`. Beyond `10^±400` it is known at once. -/
def ofDecimal (negative : Bool) (significand : Nat) (exponent : Int) : Double :=
  let weight := (Text.Numeral.write significand).length + exponent
  if significand = 0 || weight < -400 then zero negative
  else if 400 < weight then .infinite negative
  else if 0 ≤ exponent then ofRatio negative (significand * Nat.pow 10 exponent.toNat) 1
  else ofRatio negative significand (Nat.pow 10 (-exponent).toNat)

def ratio (significand : Nat) (exponent : Int) : Nat × Nat :=
  if 0 ≤ exponent then (significand * Nat.pow 2 exponent.toNat, 1)
  else (significand, Nat.pow 2 (-exponent).toNat)

def neg : Double → Double
  | .finite negative m e => .finite (!negative) m e
  | .infinite negative => .infinite (!negative)
  | .nan => .nan

def mul : Double → Double → Double
  | .finite a m e, .finite b n f =>
      let x := ratio m e
      let y := ratio n f
      ofRatio (a != b) (x.1 * y.1) (x.2 * y.2)
  | _, _ => .nan

def div : Double → Double → Double
  | .finite a m e, .finite b n f =>
      if n = 0 then .nan
      else
        let x := ratio m e
        let y := ratio n f
        ofRatio (a != b) (x.1 * y.2) (x.2 * y.1)
  | _, _ => .nan

def isFinite : Double → Bool
  | .finite .. => true
  | _ => false

def rank? : Double → Option Int
  | .finite negative m e =>
      let magnitude : Int := m * Int.pow 2 (e + 1074).toNat
      some (if negative then -magnitude else magnitude)
  | .infinite negative => some (if negative then -Int.pow 2 2200 else Int.pow 2 2200)
  | .nan => none

/-- How two doubles compare; not at all when one is no number. Both zeros are equal. -/
def compare? (x y : Double) : Option Ordering := do
  let a ← x.rank?
  let b ← y.rank?
  pure (compare a b)

end Double
end Tripwire
