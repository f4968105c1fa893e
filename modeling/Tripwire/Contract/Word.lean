import Tripwire.Bytes
import Tripwire.Contract.CallFault

/-!
# Words

A word has 32 bytes, the most significant first. Digits are appended to it in place, byte by byte
from the least significant, with a carry of 32 bits.
-/
namespace Tripwire.Contract

structure Word where
  bytes : List UInt8
  length_bytes : bytes.length = 32
  deriving DecidableEq, Repr

namespace Word

def toNat (w : Word) : Nat := Bytes.toNat w.bytes

def ofNat (n : Nat) : Word := ⟨Bytes.bigEndian 32 n, by simp⟩

def zero : Word := ⟨List.replicate 32 0, by simp⟩

def mulAddBytes (factor addend : UInt32) : List UInt8 → List UInt8 × UInt32
  | [] => ([], addend)
  | b :: rest =>
      let (low, carry) := mulAddBytes factor addend rest
      let v := b.toUInt32 * factor + carry
      (v.toUInt8 :: low, v >>> 8)

theorem length_mulAddBytes (factor addend : UInt32) (bytes : List UInt8) :
    (mulAddBytes factor addend bytes).1.length = bytes.length := by
  induction bytes with
  | nil => rfl
  | cons b rest ih => simp [mulAddBytes, ih]

def mulAdd (w : Word) (factor addend : UInt32) : Word × Bool :=
  (⟨(mulAddBytes factor addend w.bytes).1, by rw [length_mulAddBytes, w.length_bytes]⟩,
    (mulAddBytes factor addend w.bytes).2 != 0)

def byteBits (b : UInt8) : Nat := if b = 0 then 0 else b.toNat.log2 + 1

def bitsOf : List UInt8 → Nat
  | [] => 0
  | b :: rest => if b = 0 then bitsOf rest else byteBits b + 8 * rest.length

def bitLength (w : Word) : Nat := bitsOf w.bytes

def isZero (w : Word) : Bool := w.bytes.all (· == 0)

def onesOf (n : Nat) : Nat → Nat
  | 0 => 0
  | bits + 1 => n % 2 + onesOf (n / 2) bits

def isPowerOfTwo (w : Word) : Bool :=
  w.bytes.foldl (fun ones b => ones + onesOf b.toNat 8) 0 = 1

def negate (w : Word) : Word :=
  (Word.mulAdd ⟨w.bytes.map (~~~·), by simp [w.length_bytes]⟩ 1 1).1

def digit? (base : UInt32) (c : Char) : Option UInt32 :=
  let n :=
    if '0' ≤ c ∧ c ≤ '9' then some (c.val - 0x30)
    else if 'a' ≤ c ∧ c ≤ 'z' then some (c.val - 0x57)
    else if 'A' ≤ c ∧ c ≤ 'Z' then some (c.val - 0x37)
    else none
  n.filter (· < base)

def readDigits (base : UInt32) : Word → List Char → Except ArgumentFault Word
  | w, [] => .ok w
  | w, c :: rest =>
      match digit? base c with
      | none => .error (.invalidDigit c)
      | some d =>
          match w.mulAdd base d with
          | (_, true) => .error .beyondWord
          | (w, false) => readDigits base w rest

def read (base : UInt32) (digits : List Char) : Except ArgumentFault Word :=
  if digits.isEmpty then .error .noDigits else readDigits base zero digits

end Word
end Tripwire.Contract
