/-!
# Lines of TOML

Blanks are spaces and tabs. A line ends in a line feed, which a carriage return may precede, or with the
text, and a comment may stand at its end. Control characters other than tabs stand nowhere in a line.
-/
namespace Tripwire.Toml

abbrev Reader (α : Type) : Type := List Char → Option (α × List Char)

def isBlank (c : Char) : Bool := c = ' ' || c = '\t'

def isInline (c : Char) : Bool := c = '\t' || (0x20 ≤ c.toNat && c.toNat ≠ 0x7F)

def skipBlanks (text : List Char) : List Char := text.dropWhile isBlank

def readMark (mark : Char) : List Char → Option (List Char)
  | c :: rest => if c = mark then some rest else none
  | [] => none

def newline? : List Char → Option (List Char)
  | '\n' :: rest => some rest
  | '\r' :: '\n' :: rest => some rest
  | _ => none

def skipComment : List Char → List Char
  | '#' :: rest => rest.dropWhile isInline
  | text => text

def nextLine? (text : List Char) : Option (List Char) :=
  match skipComment (skipBlanks text) with
  | [] => some []
  | rest => newline? rest

def skipGaps (comment : Bool) : List Char → List Char
  | '\n' :: rest => skipGaps false rest
  | '\r' :: '\n' :: rest => skipGaps false rest
  | c :: rest =>
      if comment then (if isInline c then skipGaps true rest else c :: rest)
      else if c = '#' then skipGaps true rest
      else if isBlank c then skipGaps false rest
      else c :: rest
  | [] => []

end Tripwire.Toml
