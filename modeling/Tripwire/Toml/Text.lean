import Tripwire.Text.Hex
import Tripwire.Toml.Line

/-!
# Texts in TOML

A text stands between quotes, where a backslash begins an escape, or between apostrophes, where nothing
does. Three of either make a text of several lines: a line break right after them is dropped, and one or
two more of them may stand anywhere, at the very end as well. Between quotes, a backslash before a line
break also takes away all blanks and line breaks that follow.
-/
namespace Tripwire.Toml

def escape? : Char → Option Char
  | 'b' => some '\x08'
  | 't' => some '\t'
  | 'n' => some '\n'
  | 'f' => some '\x0c'
  | 'r' => some '\r'
  | '"' => some '"'
  | '\\' => some '\\'
  | _ => none

def codePoint? (digits : List Char) : Option Char :=
  (Text.Hex.number? digits).bind Text.Hex.character?

def textOf (before : List Char) : String := String.ofList before.reverse

def readQuoted (before : List Char) : Reader String
  | '"' :: rest => some (textOf before, rest)
  | '\\' :: 'u' :: a :: b :: c :: d :: rest => do
      let c ← codePoint? [a, b, c, d]
      readQuoted (c :: before) rest
  | '\\' :: 'U' :: a :: b :: c :: d :: e :: f :: g :: h :: rest => do
      let c ← codePoint? [a, b, c, d, e, f, g, h]
      readQuoted (c :: before) rest
  | '\\' :: c :: rest => do
      let c ← escape? c
      readQuoted (c :: before) rest
  | c :: rest => if isInline c then readQuoted (c :: before) rest else none
  | [] => none

/-- Reads a text of several lines up to its three quotes. While skipping, blanks and line breaks are
taken away. -/
def readQuotedLines (skipping : Bool) (before : List Char) : Reader String
  | '"' :: '"' :: '"' :: '"' :: '"' :: rest => some (textOf ('"' :: '"' :: before), rest)
  | '"' :: '"' :: '"' :: '"' :: rest => some (textOf ('"' :: before), rest)
  | '"' :: '"' :: '"' :: rest => some (textOf before, rest)
  | '\n' :: rest | '\r' :: '\n' :: rest =>
      readQuotedLines skipping (if skipping then before else '\n' :: before) rest
  | '\\' :: 'u' :: a :: b :: c :: d :: rest => do
      let c ← codePoint? [a, b, c, d]
      readQuotedLines false (c :: before) rest
  | '\\' :: 'U' :: a :: b :: c :: d :: e :: f :: g :: h :: rest => do
      let c ← codePoint? [a, b, c, d, e, f, g, h]
      readQuotedLines false (c :: before) rest
  | '\\' :: c :: rest =>
      match escape? c, newline? (skipBlanks (c :: rest)) with
      | some c, _ => readQuotedLines false (c :: before) rest
      | none, some _ => readQuotedLines true before rest
      | none, none => none
  | c :: rest =>
      if skipping && isBlank c then readQuotedLines true before rest
      else if isInline c then readQuotedLines false (c :: before) rest
      else none
  | [] => none

def readLiteral (text : List Char) : Option (String × List Char) :=
  match text.dropWhile fun c => isInline c && c ≠ '\'' with
  | '\'' :: rest => some (String.ofList (text.takeWhile (· ≠ '\'')), rest)
  | _ => none

def readLiteralLines (before : List Char) : Reader String
  | '\'' :: '\'' :: '\'' :: '\'' :: '\'' :: rest => some (textOf ('\'' :: '\'' :: before), rest)
  | '\'' :: '\'' :: '\'' :: '\'' :: rest => some (textOf ('\'' :: before), rest)
  | '\'' :: '\'' :: '\'' :: rest => some (textOf before, rest)
  | '\n' :: rest | '\r' :: '\n' :: rest => readLiteralLines ('\n' :: before) rest
  | c :: rest => if isInline c then readLiteralLines (c :: before) rest else none
  | [] => none

def readText : Reader String
  | '"' :: '"' :: '"' :: rest => readQuotedLines false [] ((newline? rest).getD rest)
  | '"' :: rest => readQuoted [] rest
  | '\'' :: '\'' :: '\'' :: rest => readLiteralLines [] ((newline? rest).getD rest)
  | '\'' :: rest => readLiteral rest
  | _ => none

end Tripwire.Toml
