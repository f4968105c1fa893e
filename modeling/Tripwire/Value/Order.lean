import Tripwire.Value.Basic

/-!
# Comparing values

Numbers compare as doubles, texts by code point, and false is below true. Values of any other kinds
are equal or do not compare at all.
-/
namespace Tripwire.Value

def double? : Value → Option Double
  | .int n => some (Double.ofInt n)
  | .float x => some x
  | _ => none

mutual

/-- Whether two values hold the same data. Both zeros are the same double, and an integer is never
a double. -/
def same : Value → Value → Bool
  | .null, .null => true
  | .bool a, .bool b => a = b
  | .int a, .int b => a = b
  | .float a, .float b => a.compare? b = some .eq
  | .str a, .str b => a = b
  | .list xs, .list ys => sameItems xs ys
  | .map xs, .map ys => sameFields xs ys
  | _, _ => false

def sameItems : List Value → List Value → Bool
  | [], [] => true
  | x :: xs, y :: ys => same x y && sameItems xs ys
  | _, _ => false

def sameFields : List (String × Value) → List (String × Value) → Bool
  | [], [] => true
  | (k, x) :: xs, (l, y) :: ys => k = l && same x y && sameFields xs ys
  | _, _ => false

end

def compareText (a b : String) : Ordering :=
  if a < b then .lt else if a = b then .eq else .gt

def compare? (a b : Value) : Option Ordering :=
  match a.double?, b.double? with
  | some x, some y => x.compare? y
  | _, _ =>
      match a, b with
      | .str s, .str t => some (compareText s t)
      | .bool p, .bool q => some (if p = q then .eq else if q then .lt else .gt)
      | a, b => if a.same b then some .eq else none

end Tripwire.Value
