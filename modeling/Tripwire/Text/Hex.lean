/-!
# Hexadecimal bytes

Bytes are written as two lowercase digits each. Reading takes digits of either case; an odd count
is found before any character is looked at.
-/
namespace Tripwire.Text.Hex

def digit (n : Nat) : Char :=
  if n < 10 then Char.ofNat ('0'.toNat + n) else Char.ofNat ('a'.toNat + (n - 10))

def nibble? (code : UInt8) : Option UInt8 :=
  if 0x30 ≤ code ∧ code ≤ 0x39 then some (code - 0x30)
  else if 0x61 ≤ code ∧ code ≤ 0x66 then some (code - 0x57)
  else if 0x41 ≤ code ∧ code ≤ 0x46 then some (code - 0x37)
  else none

def isDigit (c : Char) : Bool :=
  ('0' ≤ c && c ≤ '9') || ('a' ≤ c && c ≤ 'f') || ('A' ≤ c && c ≤ 'F')

def digit? (c : Char) : Option Nat :=
  if isDigit c then (nibble? c.toUInt8).map UInt8.toNat else none

def number? (digits : List Char) : Option Nat :=
  digits.foldlM (fun n c => (digit? c).map (16 * n + ·)) 0

def character? (n : Nat) : Option Char :=
  if n.isValidChar then some (Char.ofNat n) else none

/-- Why a text is no sequence of bytes. A character is known by its byte and the byte's position. -/
inductive Fault where
  | oddLength
  | invalidCharacter (code : UInt8) (position : Nat)
  deriving DecidableEq, Repr

def readFrom (position : Nat) : List UInt8 → Except Fault (List UInt8)
  | high :: low :: rest =>
      match nibble? high with
      | none => .error (.invalidCharacter high position)
      | some h =>
          match nibble? low with
          | none => .error (.invalidCharacter low (position + 1))
          | some l => (readFrom (position + 2) rest).map ((16 * h + l) :: ·)
  | _ => .ok []

def read (codes : List UInt8) : Except Fault (List UInt8) :=
  if codes.length % 2 = 1 then .error .oddLength else readFrom 0 codes

def write (bytes : List UInt8) : List Char :=
  bytes.flatMap fun b => [digit (b.toNat / 16), digit (b.toNat % 16)]

def ofNat (n : Nat) : List Char := Nat.toDigits 16 n

end Tripwire.Text.Hex
