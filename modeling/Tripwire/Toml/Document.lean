import Tripwire.Toml.Moment
import Tripwire.Toml.Number
import Tripwire.Toml.Table
import Tripwire.Toml.Text

/-!
# Documents in TOML

A document is read as the value that it says, with a map for each table. Arrays and tables within a line
nest less than eighty deep, and a key has less than eighty parts.
-/
namespace Tripwire.Toml

def nestingLimit : Nat := 79

def isBareKey (c : Char) : Bool := c.isAlphanum || c = '_' || c = '-'

def readKeyPart : Reader String
  | '"' :: rest => readQuoted [] rest
  | '\'' :: rest => readLiteral rest
  | text =>
      let part := text.takeWhile isBareKey
      if part.isEmpty then none else some (String.ofList part, text.dropWhile isBareKey)

def readKey : Nat → Reader (List String × String)
  | 0, _ => none
  | parts + 1, text => do
      let (part, rest) ← readKeyPart (skipBlanks text)
      match skipBlanks rest with
      | '.' :: rest =>
          let ((path, key), rest) ← readKey parts rest
          pure ((part :: path, key), rest)
      | rest => pure (([], part), rest)

def momentField : String := "$__toml_private_datetime"

def readScalar (text : List Char) : Option (Value × List Char) :=
  match text with
  | '"' :: _ | '\'' :: _ => (readText text).map fun (s, rest) => (.str s, rest)
  | 't' :: 'r' :: 'u' :: 'e' :: rest => some (.bool true, rest)
  | 'f' :: 'a' :: 'l' :: 's' :: 'e' :: rest => some (.bool false, rest)
  | _ =>
      match readMoment text with
      | some (s, rest) => some (.map [(momentField, .str s)], rest)
      | none => readNumber text

/-- Reads the items of an array up to its end; those before are given in reverse. A comma may stand
after the last one. -/
def readItems (item : Reader Value) : Nat → List Value → Reader Value
  | 0, _, _ => none
  | fuel + 1, before, text =>
      match skipGaps false text with
      | ']' :: rest => some (.list before.reverse, rest)
      | text => do
          let (value, rest) ← item text
          match skipGaps false rest with
          | ',' :: rest => readItems item fuel (value :: before) rest
          | ']' :: rest => pure (.list (value :: before).reverse, rest)
          | _ => none

structure Pair where
  path : List String
  key : String
  value : Value

def readPair (item : Reader Value) (text : List Char) : Option (Pair × List Char) := do
  let ((path, key), rest) ← readKey nestingLimit text
  let rest ← readMark '=' rest
  let (value, rest) ← item (skipBlanks rest)
  pure (⟨path, key, value⟩, rest)

def readPairs (item : Reader Value) : Nat → Fields → Reader Value
  | 0, _, _ => none
  | fuel + 1, fields, text => do
      let (pair, rest) ← readPair item text
      let fields ← fields.put pair.path pair.key pair.value .header
      match skipBlanks rest with
      | ',' :: rest => readPairs item fuel fields rest
      | '}' :: rest => pure (fields.toValue, rest)
      | _ => none

def readValue : Nat → Reader Value
  | depth + 1, '[' :: rest => readItems (readValue depth) (rest.length + 1) [] rest
  | depth + 1, '{' :: rest =>
      match skipBlanks rest with
      | '}' :: rest => some (.map [], rest)
      | rest => readPairs (readValue depth) (rest.length + 1) [] rest
  | _, text => readScalar text

inductive Line where
  | blank
  | table (path : List String) (key : String)
  | item (path : List String) (key : String)
  | pair (pair : Pair)

def readLine (text : List Char) : Option (Line × List Char) :=
  match skipBlanks text with
  | [] => some (.blank, [])
  | '[' :: '[' :: rest => do
      let ((path, key), rest) ← readKey nestingLimit rest
      let rest ← readMark ']' rest
      let rest ← readMark ']' rest
      pure (.item path key, rest)
  | '[' :: rest => do
      let ((path, key), rest) ← readKey nestingLimit rest
      let rest ← readMark ']' rest
      pure (.table path key, rest)
  | c :: rest =>
      if c = '#' || c = '\n' || c = '\r' then some (.blank, c :: rest)
      else (readPair (readValue nestingLimit) (c :: rest)).map fun (pair, rest) => (.pair pair, rest)

def readLines : Nat → List Char → Option (List Line)
  | _, [] => some []
  | 0, _ => none
  | fuel + 1, text => do
      let (line, rest) ← readLine text
      let lines ← readLines fuel (← nextLine? rest)
      pure (line :: lines)

structure Draft where
  fields : Fields
  opened : List String

def Draft.add (d : Draft) : Line → Option Draft
  | .blank => some d
  | .table path key => (d.fields.openTable path key).map (⟨·, path ++ [key]⟩)
  | .item path key => (d.fields.openItem path key).map (⟨·, path ++ [key]⟩)
  | .pair p =>
      let put (origin : Origin) (fields : Fields) := fields.put p.path p.key p.value origin
      (d.fields.within false put d.opened .header).map (⟨·, d.opened⟩)

/-- Reads a document. A byte order mark may stand before it. -/
def read? (text : String) : Option Value := do
  let text := match text.toList with
    | '\ufeff' :: rest => rest
    | text => text
  let lines ← readLines text.length text
  let document ← lines.foldlM Draft.add ⟨[], []⟩
  pure document.fields.toValue

end Tripwire.Toml
