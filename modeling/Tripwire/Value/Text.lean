import Tripwire.Value.Basic
import Tripwire.Number.Shortest
import Tripwire.Text.Hex

/-!
# The JSON text of values

Compact: no blanks between tokens. A string escapes the quote, the backslash and the controls below
the space and nothing else. Doubles without a finite value are written as null.
-/
namespace Tripwire.Value

def escapeChar (c : Char) : List Char :=
  if c = '"' then ['\\', '"']
  else if c = '\\' then ['\\', '\\']
  else if c = '\x08' then ['\\', 'b']
  else if c = '\x0c' then ['\\', 'f']
  else if c = '\n' then ['\\', 'n']
  else if c = '\r' then ['\\', 'r']
  else if c = '\t' then ['\\', 't']
  else if c.toNat < 0x20 then
    ['\\', 'u', '0', '0', Text.Hex.digit (c.toNat / 16), Text.Hex.digit (c.toNat % 16)]
  else [c]

def literal (s : List Char) : List Char := '"' :: s.flatMap escapeChar ++ ['"']

def intText (n : Int) : List Char :=
  if n < 0 then '-' :: Text.Numeral.write n.natAbs else Text.Numeral.write n.natAbs

mutual

def text : Value → List Char
  | .null => ['n', 'u', 'l', 'l']
  | .bool true => ['t', 'r', 'u', 'e']
  | .bool false => ['f', 'a', 'l', 's', 'e']
  | .int n => intText n
  | .float x => (x.write?).getD ['n', 'u', 'l', 'l']
  | .str s => literal s.toList
  | .list [] => ['[', ']']
  | .list (x :: xs) => '[' :: (text x ++ textItems xs)
  | .map [] => ['{', '}']
  | .map ((k, v) :: fields) => '{' :: (literal k.toList ++ ':' :: (text v ++ textFields fields))

def textItems : List Value → List Char
  | [] => [']']
  | x :: xs => ',' :: (text x ++ textItems xs)

def textFields : List (String × Value) → List Char
  | [] => ['}']
  | (k, v) :: fields => ',' :: (literal k.toList ++ ':' :: (text v ++ textFields fields))

end

def toText (v : Value) : String := String.ofList v.text

end Tripwire.Value
