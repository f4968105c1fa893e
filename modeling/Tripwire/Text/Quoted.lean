import Tripwire.Text.Hex
import Tripwire.Text.Unprinted

/-!
# Quoted text for messages

A quoted text or character shows what it holds: the quote and the backslash are escaped, blanks
other than the space are named, and a character without a shape of its own is written by number.
-/
namespace Tripwire.Text

def showChar (quote c : Char) : List Char :=
  if c = '\x00' then ['\\', '0']
  else if c = '\t' then ['\\', 't']
  else if c = '\r' then ['\\', 'r']
  else if c = '\n' then ['\\', 'n']
  else if c = '\\' ∨ c = quote then ['\\', c]
  else if isUnprinted c then ['\\', 'u', '{'] ++ Hex.ofNat c.toNat ++ ['}']
  else [c]

def quoted (text : List Char) : List Char :=
  '"' :: text.flatMap (showChar '"') ++ ['"']

def quotedChar (c : Char) : List Char :=
  '\'' :: showChar '\'' c ++ ['\'']

def Hex.Fault.message : Hex.Fault → String
  | .oddLength => "Odd number of digits"
  | .invalidCharacter code position =>
      "Invalid character " ++ String.ofList (quotedChar (Char.ofNat code.toNat)) ++
        " at position " ++ toString position

end Tripwire.Text
