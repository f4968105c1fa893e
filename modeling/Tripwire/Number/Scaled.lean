import Tripwire.Number.Double

/-!
# Scaled significands

A quick reading of a decimal: the significand becomes a double, which is then multiplied or divided
by a power of ten. Each of these steps rounds, so the result can miss the nearest double.
-/
namespace Tripwire.Double

def significandLimit : Nat := Nat.pow 2 64 - 1

def absorb : Nat → List Nat → Nat × Nat
  | n, [] => (n, 0)
  | n, d :: rest =>
      if 10 * n + d ≤ significandLimit then
        let (m, used) := absorb (10 * n + d) rest
        (m, used + 1)
      else (n, 0)

def powerOfTen (n : Nat) : Double := ofRatio false (Nat.pow 10 n) 1

/-- Divides by `10^n` in steps of at most `10^308`. Three steps take any significand to zero. -/
def scaleDown (x : Double) (n : Nat) : Nat → Double
  | 0 => zero false
  | steps + 1 =>
      if n ≤ 308 then x.div (powerOfTen n) else scaleDown (x.div (powerOfTen 308)) (n - 308) steps

def scaled? (significand : Nat) (exponent : Int) : Option Double :=
  let x := ofRatio false significand 1
  if significand = 0 then some x
  else if exponent < 0 then some (scaleDown x exponent.natAbs 4)
  else if 308 < exponent then none
  else
    let y := x.mul (powerOfTen exponent.toNat)
    if y.isFinite then some y else none

/-- Reads the digits before and after the point and the exponent. Digits past the limit only count
for the scale when they stand before the point, and are dropped after it. -/
def ofDigits? (whole fraction : List Nat) (exponent : Int) : Option Double :=
  let (n, used) := absorb 0 whole
  let (m, placed) := absorb n fraction
  scaled? m (exponent + (whole.length - used : Nat) - placed)

end Tripwire.Double
