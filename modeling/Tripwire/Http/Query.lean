import Tripwire.Bytes
import Tripwire.Text.Hex
import Tripwire.Text.Utf8

/-!
# Query strings

Pairs of names and values as forms are sent: parted by `&` and `=`, with `+` for a space and `%` before
two hexadecimal digits for a byte. A pair without `=` has an empty value.
-/
namespace Tripwire.Http

def splitAll (mark : Char) : List Char → List (List Char)
  | [] => [[]]
  | c :: rest =>
      match splitAll mark rest with
      | [] => [[]]
      | first :: others => if c = mark then [] :: first :: others else (c :: first) :: others

def splitFirst (mark : Char) (text : List Char) : List Char × List Char :=
  (text.takeWhile (· ≠ mark), (text.dropWhile (· ≠ mark)).drop 1)

/-- The bytes that an encoded text stands for. A `%` without two digits stands for itself. -/
def decodeBytes : List UInt8 → List UInt8
  | [] => []
  | 0x2B :: rest => 0x20 :: decodeBytes rest
  | 0x25 :: a :: b :: rest =>
      match Text.Hex.nibble? a, Text.Hex.nibble? b with
      | some high, some low => (16 * high + low) :: decodeBytes rest
      | _, _ => 0x25 :: decodeBytes (a :: b :: rest)
  | b :: rest => b :: decodeBytes rest

def decodePart (text : List Char) : String :=
  Text.Utf8.decodeLossy (decodeBytes (Bytes.ofText (String.ofList text)))

def readQuery (query : List Char) : List (String × String) :=
  ((splitAll '&' query).filter (!·.isEmpty)).map fun pair =>
    let (name, value) := splitFirst '=' pair
    (decodePart name, decodePart value)

end Tripwire.Http
