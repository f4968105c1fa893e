/-!
# Bytes

Texts and numbers as sequences of bytes.
-/
namespace Tripwire.Bytes

def ofText (s : String) : List UInt8 := s.toUTF8.toList

def bigEndian (count n : Nat) : List UInt8 :=
  (List.range count).reverse.map fun i => (n / Nat.pow 256 i).toUInt8

def toNat (bytes : List UInt8) : Nat := bytes.foldl (fun n b => 256 * n + b.toNat) 0

@[simp] theorem length_bigEndian (count n : Nat) : (bigEndian count n).length = count := by
  simp [bigEndian]

end Tripwire.Bytes
