import Tripwire.Value.Basic
import Tripwire.Number.Scaled
import Tripwire.Text.Numeral
import Tripwire.Text.Hex

/-!
# Reading JSON text

An integer literal from `-2^63` to `2^64 - 1` is an integer, except for `-0`; every other number is
a double. Of two fields with one name the later one stays, and fields are held in the order of
their names.
-/
namespace Tripwire.Value

def skipBlanks (text : List Char) : List Char :=
  text.dropWhile fun c => c = ' ' || c = '\t' || c = '\n' || c = '\r'

def readString (before : List Char) : List Char → Option (String × List Char)
  | '"' :: rest => some (String.ofList before.reverse, rest)
  | '\\' :: 'u' :: a :: b :: c :: d :: '\\' :: 'u' :: e :: f :: g :: h :: rest => do
      let high ← Text.Hex.number? [a, b, c, d]
      if 0xD800 ≤ high && high < 0xDC00 then
        let low ← Text.Hex.number? [e, f, g, h]
        if 0xDC00 ≤ low && low < 0xE000 then
          let c ← Text.Hex.character? (0x10000 + (high - 0xD800) * 0x400 + (low - 0xDC00))
          readString (c :: before) rest
        else none
      else
        let c ← Text.Hex.character? high
        readString (c :: before) ('\\' :: 'u' :: e :: f :: g :: h :: rest)
  | '\\' :: 'u' :: a :: b :: c :: d :: rest => do
      let c ← (Text.Hex.number? [a, b, c, d]).bind Text.Hex.character?
      readString (c :: before) rest
  | '\\' :: c :: rest =>
      match c with
      | '"' | '\\' | '/' => readString (c :: before) rest
      | 'b' => readString ('\x08' :: before) rest
      | 'f' => readString ('\x0c' :: before) rest
      | 'n' => readString ('\n' :: before) rest
      | 'r' => readString ('\r' :: before) rest
      | 't' => readString ('\t' :: before) rest
      | _ => none
  | c :: rest => if c.toNat < 0x20 then none else readString (c :: before) rest
  | [] => none

def readExponent (text : List Char) : Option (Option Int × List Char) :=
  match text with
  | e :: rest =>
      if e = 'e' || e = 'E' then
        let (negative, rest) :=
          match rest with
          | '-' :: rest => (true, rest)
          | '+' :: rest => (false, rest)
          | rest => (false, rest)
        match Text.Numeral.takeDigits rest with
        | ([], _) => none
        | (ds, rest) =>
            let n := Text.Numeral.ofDigits ds
            some (some (if negative then -(n : Int) else n), rest)
      else some (none, text)
  | [] => some (none, [])

def readNumber (negative : Bool) (text : List Char) : Option (Value × List Char) := do
  let (whole, rest) := Text.Numeral.takeDigits text
  if whole.isEmpty || (1 < whole.length && whole.head? = some 0) then none
  let (fraction, rest) ←
    match rest with
    | '.' :: rest =>
        match Text.Numeral.takeDigits rest with
        | ([], _) => none
        | (ds, rest) => some (some ds, rest)
    | rest => some (none, rest)
  let (exponent, rest) ← readExponent rest
  let n := Text.Numeral.ofDigits whole
  let limit := if negative then Nat.pow 2 63 else Nat.pow 2 64 - 1
  if fraction.isNone && exponent.isNone && n ≤ limit && !(negative && n = 0) then
    some (.int (if negative then -(n : Int) else n), rest)
  else
    let x ← Double.ofDigits? whole (fraction.getD []) (exponent.getD 0)
    some (.float (if negative then x.neg else x), rest)

mutual

def readValue (fuel : Nat) (text : List Char) : Option (Value × List Char) :=
  match fuel with
  | 0 => none
  | fuel + 1 =>
      match skipBlanks text with
      | 'n' :: 'u' :: 'l' :: 'l' :: rest => some (.null, rest)
      | 't' :: 'r' :: 'u' :: 'e' :: rest => some (.bool true, rest)
      | 'f' :: 'a' :: 'l' :: 's' :: 'e' :: rest => some (.bool false, rest)
      | '"' :: rest => (readString [] rest).map fun (s, rest) => (.str s, rest)
      | '[' :: rest =>
          match skipBlanks rest with
          | ']' :: rest => some (.list [], rest)
          | rest => readItems fuel [] rest
      | '{' :: rest =>
          match skipBlanks rest with
          | '}' :: rest => some (.map [], rest)
          | rest => readFields fuel [] rest
      | '-' :: rest => readNumber true rest
      | rest => readNumber false rest

def readItems (fuel : Nat) (before : List Value) (text : List Char) : Option (Value × List Char) :=
  match fuel with
  | 0 => none
  | fuel + 1 => do
      let (item, rest) ← readValue fuel text
      match skipBlanks rest with
      | ',' :: rest => readItems fuel (item :: before) rest
      | ']' :: rest => some (.list (item :: before).reverse, rest)
      | _ => none

def readFields (fuel : Nat) (before : List (String × Value)) (text : List Char) :
    Option (Value × List Char) :=
  match fuel with
  | 0 => none
  | fuel + 1 =>
      match skipBlanks text with
      | '"' :: rest => do
          let (name, rest) ← readString [] rest
          match skipBlanks rest with
          | ':' :: rest =>
              let (value, rest) ← readValue fuel rest
              match skipBlanks rest with
              | ',' :: rest => readFields fuel (insertField name value before) rest
              | '}' :: rest => some (.map (insertField name value before), rest)
              | _ => none
          | _ => none
      | _ => none

end

def read? (text : String) : Option Value := do
  let chars := text.toList
  let (value, rest) ← readValue (chars.length + 1) chars
  if (skipBlanks rest).isEmpty then some value else none

end Tripwire.Value
